import Stencil.Proofs.Shortening
import Stencil.Proofs.Spelling

/-! Numbers with a point. A number is written with a point, and is then read back, if its size is neither too small
nor too great for that; otherwise it is written with an exponent, which is no part of a number in an expression. -/
namespace Stencil

namespace Reader

theorem natOfAppend (a b : List Char) : natOf (a ++ b) = natOf a * 10 ^ b.length + natOf b := by
  have both : natOf (a ++ b) = Nat.ofDigitChars 10 b (natOf a) := Nat.ofDigitChars_append 0
  rw [both, Nat.ofDigitChars_eq_ofDigitChars_zero, Nat.mul_comm]
  rfl

theorem natOfZeros (k : Nat) : natOf (List.replicate k '0') = 0 := by
  induction k with
  | zero => rfl
  | succ k ih =>
    have first : natOf ['0'] = 0 := rfl
    rw [List.replicate_succ, ← List.singleton_append, natOfAppend, ih, first, Nat.zero_mul]

end Reader

namespace Decimal

open Binary64 Reader

variable {c : Nat} {place : Int}

/- The size of a decimal follows from the count of its digits. -/
theorem decimalBounds (some : 0 < c) (place : Int) :
    (10 : ℚ) ^ ((Nat.toDigits 10 c).length + place - 1) ≤ c * 10 ^ place ∧
      (c : ℚ) * 10 ^ place < 10 ^ ((Nat.toDigits 10 c).length + place) := by
  have ten : (10 : ℚ) ≠ 0 := by norm_num
  have power : (0 : ℚ) < 10 ^ place := zpow_pos (by norm_num) _
  obtain ⟨k, size⟩ : ∃ k, (Nat.toDigits 10 c).length = k + 1 :=
    Nat.exists_eq_add_one.mpr (Nat.length_toDigits_pos (b := 10) (n := c))
  have most : c < 10 ^ (k + 1) := (Nat.length_toDigits_le_iff (by omega) (by omega)).mp size.le
  have least : 10 ^ k ≤ c := by
    rcases Nat.eq_zero_or_pos k with rfl | some'
    · exact some
    · by_contra short
      have fewer := (Nat.length_toDigits_le_iff (by omega) some').mpr (Nat.not_le.mp short)
      omega
  rw [size]
  constructor
  · rw [show ((k + 1 : Nat) : Int) + place - 1 = k + place by push_cast; ring, zpow_add₀ ten, zpow_natCast]
    refine mul_le_mul_of_nonneg_right ?_ power.le
    exact_mod_cast least
  · rw [zpow_add₀ ten, zpow_natCast]
    refine mul_lt_mul_of_pos_right ?_ power
    exact_mod_cast most

/- Trailing zeros are left out, and the place of the others tells how many there were. -/
theorem normalDigits (some : 0 < c) (place : Int) :
    ∃ ds, normal (c, place) = (ds, (Nat.toDigits 10 c).length + place) ∧ ds ≠ [] ∧ (∀ d ∈ ds, Expr.Numeral d) ∧
      (natOf ds : ℚ) * 10 ^ ((Nat.toDigits 10 c).length + place - ds.length) = c * 10 ^ place := by
  have zeros : (Nat.toDigits 10 c).reverse.takeWhile (· == '0') =
      List.replicate ((Nat.toDigits 10 c).reverse.takeWhile (· == '0')).length '0' := by
    refine List.eq_replicate_of_mem fun d member => ?_
    simpa using List.all_eq_true.mp (List.all_takeWhile (p := (· == '0'))) d member
  have cut : Nat.toDigits 10 c = ((Nat.toDigits 10 c).reverse.dropWhile (· == '0')).reverse ++
      List.replicate ((Nat.toDigits 10 c).reverse.takeWhile (· == '0')).length '0' := by
    rw [← List.reverse_replicate, ← zeros, ← List.reverse_append, List.takeWhile_append_dropWhile, List.reverse_reverse]
  have numerals := Expr.naturalDigits c
  have value := Expr.natOfDigits c
  refine ⟨((Nat.toDigits 10 c).reverse.dropWhile (· == '0')).reverse, rfl, ?_, ?_, ?_⟩
  · intro nothing
    rw [cut, nothing, List.nil_append, natOfZeros] at value
    omega
  · intro d member
    rw [cut] at numerals
    exact numerals d (List.mem_append_left _ member)
  · generalize ((Nat.toDigits 10 c).reverse.dropWhile (· == '0')).reverse = ds at cut ⊢
    generalize ((Nat.toDigits 10 c).reverse.takeWhile (· == '0')).length = k at cut
    have size : (Nat.toDigits 10 c).length = ds.length + k := by rw [cut, List.length_append, List.length_replicate]
    rw [cut, natOfAppend, natOfZeros, List.length_replicate, Nat.add_zero] at value
    rw [size, ← value, show ((ds.length + k : Nat) : Int) + place - ds.length = k + place by push_cast; ring,
      zpow_add₀ (by norm_num), zpow_natCast]
    push_cast
    ring

/- The digits in front of a point and behind it. -/
structure Parts (front back : List Char) : Prop where
  whole : ∀ d ∈ front, Expr.Numeral d
  part : ∀ d ∈ back, Expr.Numeral d
  some : front ≠ []
  some' : back ≠ []

variable {ds : List Char} {point : Int}

/- Within the range of the positional notation the digits are written with a point among them. -/
theorem writesPositional (digits : ∀ d ∈ ds, Expr.Numeral d) (written : ds ≠ []) (above : -4 < point)
    (upTo : point ≤ 16) : ∃ whole part, Layout.exact.write ds point = whole ++ '.' :: part ∧ Parts whole part ∧
      (natOf (whole ++ part) : ℚ) * 10 ^ (-(part.length : Int)) = natOf ds * 10 ^ (point - ds.length) := by
  have zero : Expr.Numeral '0' := Expr.digitNumeral (by decide)
  have zeros (k : Nat) : ∀ d ∈ List.replicate k '0', Expr.Numeral d :=
    fun d member => List.eq_of_mem_replicate member ▸ zero
  have within : (decide (Layout.exact.above < point) && decide (point ≤ Layout.exact.upTo)) = true := by
    simp [Layout.exact, above, upTo]
  unfold Layout.write
  rw [if_pos within]
  split
  · -- All digits stand behind the point, and zeros in front of them.
    rename_i small
    refine ⟨['0'], List.replicate (-point).toNat '0' ++ ds, rfl, ⟨?_, ?_, by simp, by simp [written]⟩, ?_⟩
    · simpa using zero
    · exact List.forall_mem_append.mpr ⟨zeros _, digits⟩
    · have front : natOf (['0'] ++ (List.replicate (-point).toNat '0' ++ ds)) = natOf ds := by
        rw [← List.append_assoc, natOfAppend, List.singleton_append, ← List.replicate_succ, natOfZeros]
        omega
      rw [front, List.length_append, List.length_replicate]
      congr 2
      push_cast
      omega
  · rename_i great
    split
    · -- All digits stand in front of the point, and zeros behind them.
      rename_i few
      refine ⟨ds ++ List.replicate (point.toNat - ds.length) '0', ['0'], by simp [Layout.exact],
        ⟨List.forall_mem_append.mpr ⟨digits, zeros _⟩, by simpa using zero, by simp [written], by simp⟩, ?_⟩
      have last : natOf ['0'] = 0 := rfl
      rw [natOfAppend, natOfAppend, natOfZeros, last, List.length_replicate,
        show point - ds.length = ((point.toNat - ds.length : Nat) : Int) by omega, zpow_natCast]
      push_cast
      simp [mul_assoc]
    · rename_i many
      have fits : point.toNat ≤ ds.length := by omega
      refine ⟨ds.take point.toNat, ds.drop point.toNat, rfl, ⟨?_, ?_, ?_, ?_⟩, ?_⟩
      · exact fun d member => digits d (List.mem_of_mem_take member)
      · exact fun d member => digits d (List.mem_of_mem_drop member)
      · rw [← List.length_pos_iff, List.length_take]
        omega
      · rw [← List.length_pos_iff, List.length_drop]
        omega
      · rw [List.take_append_drop, List.length_drop]
        congr 2
        omega

/- The place of the point tells whether a number is moderate. -/
theorem pointModerate {w : ℚ} (low : (10 : ℚ) ^ (point - 1) ≤ w) (high : w < (10 : ℚ) ^ point) :
    Moderate w ↔ -4 < point ∧ point ≤ 16 := by
  have grows := fun {i j : Int} => zpow_lt_zpow_iff_right₀ (by norm_num : (1 : ℚ) < 10) (m := i) (n := j)
  have tens {i j : Int} (less : i ≤ j) : (10 : ℚ) ^ i ≤ 10 ^ j := zpow_le_zpow_right₀ (by norm_num) less
  rw [moderateTens]
  constructor
  · rintro ⟨first, last⟩
    have above := grows.mp (first.trans_lt high)
    have below := grows.mp (low.trans_lt last)
    omega
  · rintro ⟨above, upTo⟩
    exact ⟨(tens (by omega)).trans low, high.trans_le (tens upTo)⟩

/- A moderate decimal is read as the number in whose interval it lies. -/
theorem decimalRounds {m : Nat} {e : Int} {places : Nat} (normal : Normal m e) (some : 0 < places)
    (moderate : Moderate (c * 10 ^ (-(places : Int)))) (inside : Between m e (c * 10 ^ (-(places : Int))))
    (negative : Bool) : Reader.decimal negative c (-(places : Int)) = .finite negative m e := by
  have digits : 0 < c := by
    rcases Nat.eq_zero_or_pos c with rfl | digits
    · have least := moderate.1
      norm_num at least
    · exact digits
  obtain ⟨low, high⟩ := decimalBounds digits (-(places : Int))
  obtain ⟨above, upTo⟩ := (pointModerate low high).mp moderate
  have value : (c : ℚ) * 10 ^ (-(places : Int)) = (c : ℚ) / (10 ^ places : Nat) := by
    rw [zpow_neg, zpow_natCast, ← div_eq_mul_inv]
    norm_num
  have small : ¬ (decide (c = 0) || decide (((Nat.toDigits 10 c).length : Int) + -(places : Int) < -400)) = true := by
    simp only [Bool.or_eq_true, decide_eq_true_eq]
    omega
  rw [Reader.decimal, if_neg small, if_neg (by omega), if_neg (by omega), neg_neg, Int.toNat_natCast]
  exact betweenRounds (Nat.pow_pos (by norm_num)) normal (value ▸ inside) negative

end Decimal

namespace Expr

open Text Reader

variable {ds whole part t : List Char}

/- Digits with a point among them, in front of what is no digit. -/
theorem pointBehind (parts : Decimal.Parts whole part) (other : ∀ c ∈ t.head?, isDecimal c = false) :
    afterDigits? (whole ++ '.' :: (part ++ t)) =
      if t.head?.any (fun c => isWord c || c = '.') then none else some t := by
  have noDigit : isDecimal '.' = false := by decide +kernel
  have front : (whole ++ '.' :: (part ++ t)).takeWhile isDecimal = whole := by
    rw [List.takeWhile_append_of_pos (fun d member => (parts.whole d member).decimal)]
    simp [noDigit]
  have back : (part ++ t).takeWhile isDecimal = part := by
    rw [List.takeWhile_append_of_pos (fun d member => (parts.part d member).decimal)]
    cases t with
    | nil => simp
    | cons c t => simp [other c rfl]
  simp only [afterDigits?, front, List.drop_left, back, List.isEmpty_eq_false_iff.mpr parts.some,
    List.isEmpty_eq_false_iff.mpr parts.some', Bool.false_or, Bool.false_eq_true, if_false, List.drop_succ_cons]

/- Digits with an exponent are no number of an expression. -/
theorem exponentBehind {point : Int} (digits : ∀ d ∈ ds, Numeral d) (written : ds ≠ [])
    (outside : ¬ (-4 < point ∧ point ≤ 16)) :
    ∃ c r, Decimal.Layout.exact.write ds point = c :: r ∧ Numeral c ∧ afterDigits? (c :: r) = none := by
  have letter : isDecimal 'e' = false ∧ isWord 'e' = true := by decide +kernel
  have beyond :
      ¬ (decide (Decimal.Layout.exact.above < point) && decide (point ≤ Decimal.Layout.exact.upTo)) = true := by
    rwa [Bool.and_eq_true, decide_eq_true_eq, decide_eq_true_eq]
  unfold Decimal.Layout.write
  rw [if_neg beyond]
  obtain ⟨d, rest, rfl⟩ := List.exists_cons_of_ne_nil written
  have first := digits d List.mem_cons_self
  cases rest with
  | nil =>
    refine ⟨d, _, rfl, first, ?_⟩
    have ends := @digitsBehind ('e' :: Decimal.writeExponent (point - 1)) [d] digits written (by simp [letter.1])
    simpa [letter.2] using ends
  | cons r rest =>
    refine ⟨d, _, rfl, first, ?_⟩
    have parts : Decimal.Parts [d] (r :: rest) :=
      ⟨by simpa using first, fun x member => digits x (List.mem_cons_of_mem d member), by simp, by simp⟩
    have ends := @pointBehind [d] (r :: rest) ('e' :: Decimal.writeExponent (point - 1)) parts (by simp [letter.1])
    simpa [letter.2] using ends

/- The text of a number with a point, behind its sign. -/
def pointText (negative : Bool) (whole part : List Char) : List Char :=
  if negative then '-' :: (whole ++ '.' :: part) else whole ++ '.' :: part

variable {negative : Bool} {text : String}

theorem pointChars (parts : Decimal.Parts whole part) :
    ∀ c ∈ pointText negative whole part, Numeral c ∨ c = '-' ∨ c = '.' := by
  intro c member
  have unsigned {c : Char} (member : c ∈ whole ++ '.' :: part) : Numeral c ∨ c = '-' ∨ c = '.' := by
    rcases List.mem_append.mp member with front | behind
    · exact .inl (parts.whole c front)
    · rcases List.mem_cons.mp behind with rfl | back
      · exact .inr (.inr rfl)
      · exact .inl (parts.part c back)
  unfold pointText at member
  split at member
  · rcases List.mem_cons.mp member with rfl | behind
    · exact .inr (.inl rfl)
    · exact unsigned behind
  · exact unsigned member

theorem pointHead (parts : Decimal.Parts whole part) : ∀ c ∈ (whole ++ '.' :: part).head?, Numeral c := by
  obtain ⟨d, rest, rfl⟩ := List.exists_cons_of_ne_nil parts.some
  rintro c ⟨⟩
  exact parts.whole d List.mem_cons_self

theorem pointSpells (parts : Decimal.Parts whole part) (spelled : text.toList = pointText negative whole part) :
    Spells text.toList (.number text) := by
  have signs : isBlank '-' = false ∧ '-' ≠ '=' ∧ isQuote '-' = false := by decide
  have length {t : List Char} (apart : Apart t) : numberLength? (text.toList ++ t) = some text.toList.length := by
    have ends : afterDigits? (whole ++ '.' :: (part ++ t)) = some t := by
      rw [pointBehind parts (fun c first => (apartPart (apart c first)).1)]
      cases t with
      | nil => rfl
      | cons c t =>
        obtain ⟨-, word, -, dot⟩ := apartPart (apart c rfl)
        simp [word, dot]
    rw [spelled, pointText]
    split
    · rw [List.cons_append, List.append_assoc, List.cons_append, numberSigned, ends]
      simp
      omega
    · have unsigned : (whole ++ '.' :: (part ++ t)).head? ≠ some '-' := by
        obtain ⟨d, rest, rfl⟩ := List.exists_cons_of_ne_nil parts.some
        rintro same
        cases same
        exact (parts.whole '-' List.mem_cons_self).sign (by simp)
      rw [List.append_assoc, List.cons_append, numberUnsigned unsigned, ends]
      simp
      omega
  obtain ⟨c, r, shown, solid, other, quote⟩ : ∃ c r, text.toList = c :: r ∧ isBlank c = false ∧ c ≠ '=' ∧
      isQuote c = false := by
    rw [spelled, pointText]
    split
    · exact ⟨'-', _, rfl, signs⟩
    · obtain ⟨d, rest, rfl⟩ := List.exists_cons_of_ne_nil parts.some
      have numeral := parts.whole d List.mem_cons_self
      exact ⟨d, _, rfl, numeral.solid, fun same => numeral.sign (by simp [same]), numeral.quote⟩
  refine ⟨c, r, shown, solid, other, ?_⟩
  intro t apart
  have size := length apart
  rw [shown, List.cons_append] at size
  have all : (c :: (r ++ t)).take (c :: r).length = c :: r := by simp
  have same : String.ofList (c :: r) = text := by rw [← shown, String.ofList_toList]
  simp only [lexeme?, quote, size, all, same]
  rfl

/- A number with a point is read as the decimal of its digits. -/
theorem pointRead (parts : Decimal.Parts whole part) (spelled : text.toList = pointText negative whole part) :
    numberValue text = .ok (.float (decimal negative (natOf (whole ++ part)) (-(part.length : Int)))) := by
  have point : '.' ∈ pointText negative whole part := by
    unfold pointText
    split <;> simp
  have signs : isBlank '-' = false ∧ isBlank '.' = false ∧ asciiDigit '-' = '-' ∧ asciiDigit '.' = '.' := by
    decide +kernel
  have solid : ∀ c ∈ text.toList, isBlank c = false := by
    intro c member
    rcases pointChars parts c (spelled ▸ member) with digit | rfl | rfl
    · exact digit.solid
    · exact signs.1
    · exact signs.2.1
  have ascii : text.toList.map asciiDigit = text.toList := by
    refine (List.map_congr_left fun c member => ?_).trans (List.map_id _)
    rcases pointChars parts c (spelled ▸ member) with digit | rfl | rfl
    · exact digit.ascii
    · exact signs.2.2.1
    · exact signs.2.2.2
  have plain : '_' ∉ text.toList := by
    intro member
    rcases pointChars parts '_' (spelled ▸ member) with digit | same | same
    · exact digit.sign (by simp)
    · cases same
    · cases same
  have cut : Reader.sign text.toList = (negative, whole ++ '.' :: part) := by
    rw [spelled]
    exact signSplits (pointHead parts) (by simp) negative
  have noWord {word : String} (letter : ∀ c ∈ word.toList.head?, c.isDigit = false) :
      (String.ofList (lowerAscii (whole ++ '.' :: part)) == word) = false := by
    obtain ⟨d, rest, rfl⟩ := List.exists_cons_of_ne_nil parts.some
    exact digitNoWord (parts.whole d List.mem_cons_self) _ letter
  have front : (whole ++ '.' :: part).takeWhile Char.isDigit = whole := by
    rw [List.takeWhile_append_of_pos (fun d member => (parts.whole d member).digit)]
    simp
  have back : (whole ++ '.' :: part).dropWhile Char.isDigit = '.' :: part := by
    rw [List.dropWhile_append_of_pos (fun d member => (parts.whole d member).digit)]
    simp
  have digits : part.takeWhile Char.isDigit = part ∧ part.dropWhile Char.isDigit = [] := by
    have all : ∀ d ∈ part, d.isDigit = true := fun d member => (parts.part d member).digit
    exact ⟨List.takeWhile_eq_self_iff.mpr all, List.dropWhile_eq_nil_iff.mpr all⟩
  have read : real? text = some (decimal negative (natOf (whole ++ part)) (-(part.length : Int))) := by
    rw [real?, marginSolid (fun c first => solid c (List.mem_of_mem_head? first))
      (fun c last => solid c (List.mem_of_getLast? last)), ascii, joinedPlain plain]
    simp only [Option.bind_eq_bind, Option.bind_some, cut, @noWord "inf" (by simp), @noWord "infinity" (by simp),
      @noWord "nan" (by simp), front, back, digits,
      List.isEmpty_eq_false_iff.mpr parts.some]
    simp [exponent?]
  have contained : text.toList.contains '.' = true := by simpa [spelled] using point
  rw [numberValue, if_pos contained, read]
  rfl

/- A text whose first lexeme cannot be read is no expression. -/
theorem unlexed {c : Char} {r : List Char} (spelled : text.toList = c :: r) (solid : isBlank c = false)
    (nothing : lexeme? c r = none) (e : Expr) : parse text ≠ .ok e := by
  intro ok
  obtain ⟨ls, lexed, -⟩ := parseReads.mp ok
  rw [spelled] at lexed
  cases lexed with
  | blank blank => simp [solid] at blank
  | lexeme _ found => simp [nothing] at found

/- What begins like a number, and is none, is no expression. -/
theorem numeralUnread {c : Char} {r : List Char} (first : Numeral c) (none : afterDigits? (c :: r) = none)
    (spelled : text.toList = if negative then '-' :: c :: r else c :: r) (e : Expr) : parse text ≠ .ok e := by
  cases negative with
  | true =>
    have sign : isBlank '-' = false ∧ isQuote '-' = false ∧ isNameStart '-' = false := by decide
    have noNumber : numberLength? ('-' :: c :: r) = Option.none := by rw [numberSigned, none, Option.map_none]
    refine unlexed spelled sign.1 ?_ e
    simp [lexeme?, sign.2.1, sign.2.2, noNumber, @noOperator '-' (by decide) (c :: r)]
  | false =>
    have mark : c ∉ ['=', '!', '>', '<', '&', '|'] ∧ c ≠ '(' ∧ c ≠ ')' ∧ c ≠ ',' := by
      have mark := first.mark
      simp only [List.mem_cons, List.not_mem_nil, or_false, not_or] at mark ⊢
      tauto
    have unsigned : (c :: r).head? ≠ some '-' := by
      rintro same
      cases same
      exact first.sign (by simp)
    have noNumber : numberLength? (c :: r) = Option.none := by rw [numberUnsigned unsigned, none, Option.map_none]
    refine unlexed spelled first.solid ?_ e
    simp [lexeme?, first.quote, first.name, noNumber, noOperator mark.1, mark.2]

open Decimal Binary64

variable {m : Nat} {e : Int}

/- How a number is shown: by its digits, with the point where the size of the number puts it. -/
theorem numberShown (normal : Normal m e) (negative : Bool) :
    ∃ ds point, (Binary64.finite negative m e).text.toList =
        (if negative then '-' :: Layout.exact.write ds point else Layout.exact.write ds point) ∧
      ds ≠ [] ∧ (∀ d ∈ ds, Numeral d) ∧ Between m e (natOf ds * 10 ^ (point - ds.length)) ∧
        (Moderate (natOf ds * 10 ^ (point - ds.length)) ↔ Moderate (m * 2 ^ e)) ∧
          (Moderate (m * 2 ^ e) ↔ -4 < point ∧ point ≤ 16) := by
  have digits := shortestDigits normal
  have moderate := digits.moderate normal
  have nonzero : ¬ m = 0 := Nat.ne_of_gt normal.some
  have shown : (Binary64.finite negative m e).text.toList = (if negative then ['-'] else []) ++
      Layout.exact.write (Decimal.normal (shortest m e)).1 (Decimal.normal (shortest m e)).2 := by
    rw [Binary64.text, String.toList_ofList, Binary64.write, if_neg nonzero]
  rw [shown]
  generalize shortest m e = d at *
  obtain ⟨c, place⟩ := d
  have some : 0 < c := by
    rcases Nat.eq_zero_or_pos c with rfl | some
    · have low := digits.low
      rw [Nat.cast_zero, zero_mul] at low
      exact absurd low (zpow_pos (by norm_num) _).not_ge
    · exact some
  obtain ⟨ds, cut, written, numerals, value⟩ := normalDigits some place
  obtain ⟨low, high⟩ := decimalBounds some place
  refine ⟨ds, (Nat.toDigits 10 c).length + place, ?_, written, numerals, ?_, ?_, ?_⟩
  · rw [cut]
    cases negative <;> rfl
  · rw [value]
    exact digits.inside
  · rw [value]
    exact moderate
  · exact moderate.symm.trans (pointModerate low high)

/- A number is read back from its text if it is moderate; otherwise the text is no expression. -/
theorem numberReadBack (normal : Normal m e) (negative : Bool) :
    (Moderate (m * 2 ^ e) → parse (Binary64.finite negative m e).text =
        .ok (.literal (.float (.finite negative m e)))) ∧
      (¬ Moderate (m * 2 ^ e) → ∀ e', parse (Binary64.finite negative m e).text ≠ .ok e') := by
  obtain ⟨ds, point, shown, written, numerals, inside, same, within⟩ := numberShown normal negative
  constructor
  · intro moderate
    obtain ⟨above, upTo⟩ := within.mp moderate
    obtain ⟨whole, part, laid, parts, value⟩ := writesPositional numerals written above upTo
    have spelled : (Binary64.finite negative m e).text.toList = pointText negative whole part := by
      rw [shown, laid, pointText]
    have read : decimal negative (natOf (whole ++ part)) (-(part.length : Int)) = .finite negative m e := by
      refine decimalRounds normal (List.length_pos_iff.mpr parts.some') ?_ ?_ negative
      · rw [value]
        exact same.mpr moderate
      · rw [value]
        exact inside
    exact aloneParses (pointSpells parts spelled) (.number (by rw [pointRead parts spelled, read]))
  · intro beyond e'
    obtain ⟨c, r, laid, first, none⟩ := exponentBehind numerals written fun range => beyond (within.mpr range)
    rw [laid] at shown
    exact numeralUnread first none shown e'

/- Zero is read back with its sign. -/
theorem zeroReadBack (negative : Bool) : parse (Binary64.finite negative 0 leastExponent).text =
    .ok (.literal (.float (.finite negative 0 leastExponent))) := by
  cases negative <;> cbv

end Expr
end Stencil
