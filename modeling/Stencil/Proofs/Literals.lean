import Stencil.Proofs.Positional
import Stencil.Proofs.Printing

/-! Literals and their texts. A literal that was read from an expression is read back from the text that it is shown
by, but for texts with characters that are shown by an escape of more than one character, and for numbers that are
shown with an exponent or by a word. -/
namespace Stencil

namespace Reader

open Binary64

theorem joinedFrom {before : Bool} {s ds : List Char} (joined : joinDigits before s = some ds) :
    ∀ c ∈ ds, c ∈ s ∧ c ≠ '_' := by
  fun_induction joinDigits before s generalizing ds with
  | case1 =>
    cases joined
    simp
  | case2 before c rest digits ih =>
    obtain ⟨others, kept, rfl⟩ := Option.map_eq_some_iff.mp joined
    simp only [Bool.and_eq_true] at digits
    have noJoint : c ≠ '_' := by
      rintro rfl
      exact absurd digits.2 (by decide)
    refine List.forall_mem_cons.mpr ⟨⟨by simp, noJoint⟩, fun d member => ?_⟩
    exact ⟨by simp [(ih kept d member).1], (ih kept d member).2⟩
  | case3 => cases joined
  | case4 => simp at joined
  | case5 before c rest _ noJoint ih =>
    obtain ⟨others, kept, rfl⟩ := Option.map_eq_some_iff.mp joined
    refine List.forall_mem_cons.mpr ⟨⟨by simp, noJoint⟩, fun d member => ?_⟩
    exact ⟨by simp [(ih kept d member).1], (ih kept d member).2⟩

theorem natOfLess {ds : List Char} (digits : ∀ c ∈ ds, c.isDigit = true) : natOf ds < 10 ^ ds.length := by
  induction ds with
  | nil => simp [natOf]
  | cons c ds ih =>
    have others := ih fun d member => digits d (List.mem_cons_of_mem c member)
    have first : natOf [c] < 10 := by
      have digit := digits c List.mem_cons_self
      simp only [Char.isDigit, Bool.and_eq_true, decide_eq_true_eq, ge_iff_le, UInt32.le_iff_toNat_le] at digit
      have last : '9'.val.toNat = 57 := rfl
      have code : c.toNat = c.val.toNat := rfl
      simp only [natOf, List.foldl_cons, List.foldl_nil]
      omega
    rw [← List.singleton_append, natOfAppend, List.length_append, List.length_singleton, Nat.pow_add]
    nlinarith

theorem natOfShort {ds : List Char} {limit : Nat} (digits : ∀ c ∈ ds, c.isDigit = true) (short : ds.length ≤ limit) :
    natOf ds < Nat.pow 10 limit :=
  (natOfLess digits).trans_le (Nat.pow_le_pow_right (by norm_num) short)

theorem decimalRounded (negative : Bool) (digits : Nat) (place : Int) : (decimal negative digits place).Rounded := by
  unfold decimal
  dsimp only
  split
  · exact ofRatioRounded Nat.one_pos negative
  · split
    · exact .infinite
    · split
      · exact ofRatioRounded Nat.one_pos negative
      · exact ofRatioRounded (Nat.pow_pos (by norm_num)) negative

theorem realRounded {text : String} {x : Binary64} (read : real? text = some x) : x.Rounded := by
  simp only [real?, Option.bind_eq_bind, Option.bind_eq_some_iff] at read
  obtain ⟨chars, -, read⟩ := read
  split at read
  · cases read
    exact .infinite
  · split at read
    · cases read
      exact .nan
    · -- With a point or without one.
      split at read
      · split at read
        · cases read
        · obtain ⟨e, -, same⟩ := Option.bind_eq_some_iff.mp read
          cases same
          exact decimalRounded _ _ _
      · split at read
        · cases read
        · obtain ⟨e, -, same⟩ := Option.bind_eq_some_iff.mp read
          cases same
          exact decimalRounded _ _ _

end Reader

namespace Expr

open Text Binary64

theorem integerShort {text : String} {n : Int} (read : Path.readInteger text = .ok n) :
    n.natAbs < Value.leastUnwritable := by
  rw [Path.readInteger] at read
  split at read
  · rename_i number
    cases read
    obtain ⟨all, ds, joined, short, same⟩ := numberGrouped number
    have decimal : ∀ c ∈ ds, c.isDigit = true := by
      intro c member
      obtain ⟨inside, noJoint⟩ := Reader.joinedFrom joined c member
      simpa [grouped, noJoint] using List.all_eq_true.mp all c inside
    have fits := Reader.natOfShort decimal short
    rw [same]
    unfold Value.leastUnwritable
    exact fits
  · cases read
  · cases read

/- A number in an expression is an integer that is not too long, or a rounded decimal. -/
inductive Numeric : Value → Prop where
  | int {n : Int} (short : n.natAbs < Value.leastUnwritable) : Numeric (.int n)
  | float {x : Binary64} (rounded : x.Rounded) : Numeric (.float x)

theorem numberNumeric {digits : String} {v : Value} (value : numberValue digits = .ok v) : Numeric v := by
  unfold numberValue at value
  split at value
  · cases value
    cases read : Reader.real? digits with
    | none => exact .float .zero
    | some x => exact .float (Reader.realRounded read)
  · cases read : Path.readInteger digits with
    | error f => simp [read, Except.map] at value
    | ok n =>
      obtain rfl : Value.int n = v := by simpa [read, Except.map] using value
      exact .int (integerShort read)

mutual

/- The literals of an expression, from left to right. -/
def literals (e : Expr) : List Value :=
  match e with
  | .literal v => [v]
  | .path _ => []
  | .call _ args => literalsOf args
  | .group e | .not e => literals e
  | .and l r | .or l r | .compare _ l r => literals l ++ literals r
termination_by structural e

def literalsOf (es : List Expr) : List Value :=
  match es with
  | [] => []
  | e :: es => literals e ++ literalsOf es
termination_by structural es

end

/- The literal that a lexeme stands for, if it stands for one. -/
def literalOf? : Lexeme → Option Value
  | .text s => some (.str s)
  | .number digits => (numberValue digits).toOption
  | .keyword k => some k.value
  | _ => none

theorem joinLiterals {l : Level} {x : Lexeme} {join : Expr → Expr → Expr} (joins : l.join? x = some join)
    (left right : Expr) : (join left right).literals = left.literals ++ right.literals ∧ literalOf? x = none := by
  obtain ⟨rfl, rfl, rfl⟩ | ⟨rfl, rfl, rfl⟩ | ⟨r, rfl, rfl, rfl⟩ := joinCases joins <;> exact ⟨rfl, rfl⟩

/- The literals that are read already when a phase begins. -/
def Phase.literals : Phase → List Value
  | .chain _ left => left.literals
  | _ => []

/- The literals of what was read, and then those in what is left. -/
theorem readsLiterals {phase : Phase} {ls rest : List Lexeme} {es : List Expr} (reads : Reads phase ls es rest) :
    phase.literals ++ ls.filterMap literalOf? = literalsOf es ++ rest.filterMap literalOf? := by
  induction reads with
  | disjunction _ ih | conjunction _ ih | comparison _ ih | unary _ ih => exact ih
  | binary _ _ first others =>
    simp only [Phase.literals, List.nil_append, literalsOf, List.append_nil] at first others ⊢
    rw [first, others]
  | stop => simp [literalsOf, Phase.literals]
  | @step l left x join ls right middle e rest joins _ _ next others =>
    obtain ⟨both, other⟩ := joinLiterals joins left right
    simp only [Phase.literals, List.nil_append, literalsOf, List.append_nil, both, List.append_assoc] at next others ⊢
    rw [List.filterMap_cons_none other, next, others]
  | text => simp [literalOf?, Phase.literals, literalsOf, literals]
  | number value => simp [literalOf?, Phase.literals, literalsOf, literals, value, Except.toOption]
  | keyword => simp [literalOf?, Phase.literals, literalsOf, literals]
  | not _ ih => simpa [List.filterMap_cons, literalOf?, Phase.literals, literalsOf, literals] using ih
  | group _ ih => simpa [List.filterMap_cons, literalOf?, Phase.literals, literalsOf, literals] using ih
  | path => simp [List.filterMap_cons, literalOf?, Phase.literals, literalsOf, literals]
  | nullary => simp [List.filterMap_cons, literalOf?, Phase.literals, literalsOf, literals]
  | call _ _ ih => simpa [List.filterMap_cons, literalOf?, Phase.literals, literalsOf, literals] using ih
  | last _ ih => simpa [List.filterMap_cons, literalOf?, Phase.literals, literalsOf, literals] using ih
  | more _ _ first others =>
    simp only [Phase.literals, List.nil_append, literalsOf, List.append_nil, List.append_assoc] at first others ⊢
    rw [first, List.filterMap_cons_none rfl, others]

/- Where a literal comes from. -/
inductive Origin : Lexeme → Value → Prop where
  | text {s} : Origin (.text s) (.str s)
  | number {digits v} (numeric : Numeric v) : Origin (.number digits) v
  | keyword {k v} (same : k.value = v) : Origin (.keyword k) v

theorem literalOrigin {x : Lexeme} {v : Value} (read : literalOf? x = some v) : Origin x v := by
  cases x with
  | text s =>
    cases read
    exact .text
  | keyword k => exact .keyword (Option.some.inj read)
  | number digits =>
    cases value : numberValue digits with
    | error => simp [literalOf?, value, Except.toOption] at read
    | ok w =>
      obtain rfl : w = v := by simpa [literalOf?, value, Except.toOption] using read
      exact .number (numberNumeric value)
  | name | operator | opening | closing | comma => cases read

theorem parseOrigin {text : String} {e : Expr} {v : Value} (ok : parse text = .ok e) (stands : v ∈ e.literals) :
    ∃ ls x, Lexes text.toList ls ∧ x ∈ ls ∧ Origin x v := by
  obtain ⟨ls, lexed, reads⟩ := parseReads.mp ok
  have same := readsLiterals reads
  simp only [Phase.literals, literalsOf, List.nil_append, List.append_nil, List.filterMap_nil] at same
  rw [← same] at stands
  obtain ⟨x, member, read⟩ := List.mem_filterMap.mp stands
  exact ⟨ls, x, lexed, member, literalOrigin read⟩

/- What stands between quotes is in the text, but for what a backslash makes of a letter. -/
theorem unescapeFrom (s : List Char) : ∀ c ∈ unescape s, c ∈ s ∨ writable c = true := by
  fun_induction unescape s with
  | case1 => simp
  | case2 c rest ih =>
    refine List.forall_mem_cons.mpr ⟨?_, fun d member => ?_⟩
    · unfold escaped
      split
      · exact .inr (by decide)
      · split
        · exact .inr (by decide)
        · split
          · exact .inr (by decide)
          · exact .inl (by simp)
    · exact (ih d member).imp_left (by simp +contextual)
  | case3 c rest _ ih =>
    refine List.forall_mem_cons.mpr ⟨.inl (by simp), fun d member => ?_⟩
    exact (ih d member).imp_left (List.mem_cons_of_mem c)

theorem lexesText {s : List Char} {ls : List Lexeme} {text : String} (lexed : Lexes s ls) (member : .text text ∈ ls) :
    ∀ c ∈ text.toList, c ∈ s ∨ writable c = true := by
  induction lexed with
  | nil => cases member
  | blank _ _ ih => exact fun c inside => (ih member c inside).imp_left (List.mem_cons_of_mem _)
  | lexeme _ found _ ih =>
    rcases List.mem_cons.mp member with rfl | later
    · cases lexemeBegins found with
      | mark mark =>
        exfalso
        rcases mark with rfl | rfl | rfl
        · rw [(@markRead '(' .opening (by simp) _).2] at found
          cases found
        · rw [(@markRead ')' .closing (by simp) _).2] at found
          cases found
        · rw [(@markRead ',' .comma (by simp) _).2] at found
          cases found
      | text quote closed =>
        intro c inside
        rw [String.toList_ofList] at inside
        exact (unescapeFrom _ c inside).imp_left fun taken => List.mem_cons_of_mem _ (List.mem_of_mem_take taken)
    · exact fun c inside =>
        (ih later c inside).imp_left fun dropped => List.mem_cons_of_mem _ (List.mem_of_mem_drop dropped)

/- No control character is written in JSON. -/
theorem jsonPrintable (text : String) : ∀ c ∈ (jsonString text).toList, 32 ≤ c.toNat := by
  have quote : 32 ≤ '"'.toNat := by decide
  have one (d : Char) : ∀ c ∈ jsonChar d, 32 ≤ c.toNat := by
    intro c member
    by_cases ascii : d.toNat < 128
    · have escape : (jsonChar d).all (fun c => 32 ≤ c.toNat) = true := asciiForall d ascii (by decide +kernel)
      exact of_decide_eq_true (List.all_eq_true.mp escape c member)
    · have other {e : Char} (small : e.toNat < 128) : d ≠ e := fun same => ascii (same ▸ small)
      have plain : jsonChar d = [d] := by
        rw [jsonChar, if_neg (other (by decide)), if_neg (other (by decide)), if_neg (other (by decide)),
          if_neg (other (by decide)), if_neg (other (by decide)), if_neg (by omega), if_neg (by omega),
          if_neg (by omega)]
      rw [plain] at member
      rw [List.mem_singleton.mp member]
      omega
  intro c member
  rw [jsonString, String.toList_ofList] at member
  rcases List.mem_append.mp member with inside | last
  · rcases List.mem_cons.mp inside with rfl | inside
    · exact quote
    · obtain ⟨d, -, here⟩ := List.mem_flatMap.mp inside
      exact one d c here
  · rw [List.mem_singleton.mp last]
    exact quote

/- What a literal needs for its text to be read as the literal: only characters that are written as themselves or
behind one backslash, and a size for which a number is written with a point alone. -/
def Readable : Value → Prop
  | .str s => ∀ c ∈ s.toList, writable c = true
  | .float x => ∃ q, x.toRat? = some q ∧ (q = 0 ∨ Decimal.Moderate |q|)
  | _ => True

theorem textReadBack (s : String) :
    parse (literal (.str s)).text = .ok (.literal (.str s)) ↔ Readable (.str s) := by
  constructor
  · intro ok c member
    obtain ⟨ls, x, lexed, inside, origin⟩ := parseOrigin ok List.mem_cons_self
    have quoted : x = .text s := by
      cases origin with
      | text => rfl
      | number numeric => cases numeric
      | @keyword k _ same => cases k <;> cases same
    rcases lexesText lexed (quoted ▸ inside) c member with shown | fine
    · have above : 32 ≤ c.toNat := jsonPrintable s c shown
      simp [writable, above]
    · exact fine
  · intro fine
    have all : s.toList.all writable = true := List.all_eq_true.mpr fine
    exact printedReads rfl (by simp [spellable, literalLexeme?, all])

set_option maxRecDepth 4000 in
/- The words for the other numbers are paths, and behind a sign they are nothing. -/
theorem wordsRead : parse "NaN" = .ok (.path "NaN") ∧ parse "Infinity" = .ok (.path "Infinity") ∧
    parse "-Infinity" = .error ⟨.unexpectedCharacter '-', 0⟩ :=
  ⟨by cbv, by cbv, by cbv⟩

theorem numberLiteral {x : Binary64} (rounded : x.Rounded) :
    parse (literal (.float x)).text = .ok (.literal (.float x)) ↔ Readable (.float x) := by
  obtain ⟨nan, infinity, signed⟩ := wordsRead
  cases rounded with
  | nan =>
    have shown {payload : Nat} : (literal (.float (.nan payload))).text = "NaN" := rfl
    rw [shown, nan]
    simp [Readable, toRat?]
  | @infinite negative =>
    have shown : (literal (.float (.infinite negative))).text = if negative then "-Infinity" else "Infinity" := rfl
    rw [shown]
    cases negative <;> simp [Readable, toRat?, infinity, signed]
  | @zero negative =>
    have shown : (literal (.float (.finite negative 0 leastExponent))).text =
        (Binary64.finite negative 0 leastExponent).text := rfl
    rw [shown, zeroReadBack negative]
    simp [Readable, finiteValue]
  | @number negative m e normal =>
    have shown : (literal (.float (.finite negative m e))).text = (Binary64.finite negative m e).text := rfl
    have above : (0 : ℚ) < m * 2 ^ e := mul_pos (by exact_mod_cast normal.some) (zpow_pos (by norm_num) e)
    have size : ∀ q, (Binary64.finite negative m e).toRat? = some q → q ≠ 0 ∧ |q| = m * 2 ^ e := by
      rintro q found
      rw [finiteValue, Option.some.injEq] at found
      subst found
      split
      · exact ⟨(neg_neg_of_pos above).ne, by rw [abs_neg, abs_of_pos above]⟩
      · exact ⟨above.ne', abs_of_pos above⟩
    have readable : Readable (.float (.finite negative m e)) ↔ Decimal.Moderate (m * 2 ^ e) := by
      constructor
      · rintro ⟨q, found, nothing | moderate⟩
        · exact absurd nothing (size q found).1
        · exact (size q found).2 ▸ moderate
      · intro moderate
        have found := finiteValue negative m e
        exact ⟨_, found, .inr ((size _ found).2.symm ▸ moderate)⟩
    obtain ⟨back, lost⟩ := numberReadBack normal negative
    rw [shown, readable]
    constructor
    · intro ok
      by_contra beyond
      exact lost beyond _ ok
    · exact back

/- A literal that stands in an expression is read back from its own text if and only if the text needs neither an
escape of several characters nor an exponent nor a word. -/
theorem literalsReadBack {text : String} {e : Expr} {v : Value} (parsed : parse text = .ok e)
    (stands : v ∈ e.literals) :
    parse (literal v).text = .ok (.literal v) ↔ Readable v := by
  obtain ⟨-, x, -, -, origin⟩ := parseOrigin parsed stands
  cases origin with
  | @text s => exact textReadBack s
  | @keyword k _ same =>
    subst same
    cases k <;> exact iff_of_true (printedReads rfl rfl) trivial
  | number numeric =>
    cases numeric with
    | int short =>
      refine iff_of_true (printedReads rfl ?_) trivial
      rw [spellable, literalLexeme?, if_pos short]
      rfl
    | float rounded => exact numberLiteral rounded

def sampleTenth : Binary64 := .finite true 7205759403792794 (-56)

theorem literalsReadBackTenth : parse "-0.1" = .ok (.literal (.float sampleTenth)) ∧
    parse (literal (.float sampleTenth)).text = .ok (.literal (.float sampleTenth)) := by
  have numerals : (∀ d ∈ ['0'], Numeral d) ∧ ∀ d ∈ ['1'], Numeral d := by
    constructor <;> simp [digitNumeral (c := '0'), digitNumeral (c := '1')]
  have parts : Decimal.Parts ['0'] ['1'] := ⟨numerals.1, numerals.2, by simp, by simp⟩
  have spelled : "-0.1".toList = pointText true ['0'] ['1'] := by decide
  have value : Reader.decimal true (Reader.natOf ['0', '1']) (-1) = sampleTenth := by decide +kernel
  have parsed : parse "-0.1" = .ok (.literal (.float sampleTenth)) :=
    aloneParses (pointSpells parts spelled) (.number (value ▸ pointRead parts spelled))
  have readable : Readable (.float sampleTenth) := by
    refine ⟨_, finiteValue _ _ _, .inr ?_⟩
    rw [if_pos rfl, abs_neg]
    constructor <;> norm_num
  exact ⟨parsed, (literalsReadBack parsed List.mem_cons_self).mpr readable⟩

def sampleGreat : Binary64 := .finite false 5000000000000000 1

/- A control character is lost, and so is a number that is shown with an exponent. -/
theorem controlAndExponentLost :
    (parse "'\x01'" = .ok (.literal (.str "\x01")) ∧
      parse (literal (.str "\x01")).text ≠ .ok (.literal (.str "\x01"))) ∧
    parse "10000000000000000.0" = .ok (.literal (.float sampleGreat)) ∧
      parse (literal (.float sampleGreat)).text ≠ .ok (.literal (.float sampleGreat)) := by
  refine ⟨⟨by cbv, ?_⟩, ?_, ?_⟩
  · have shown : (literal (.str "\x01")).text = "\"\\u0001\"" := by cbv
    have read : parse "\"\\u0001\"" = .ok (.literal (.str "u0001")) := by cbv
    rw [shown, read]
    simp
  · have numerals : (∀ d ∈ '1' :: List.replicate 16 '0', Numeral d) ∧ ∀ d ∈ ['0'], Numeral d := by
      constructor <;> simp [digitNumeral (c := '0'), digitNumeral (c := '1')]
    have parts : Decimal.Parts ('1' :: List.replicate 16 '0') ['0'] := ⟨numerals.1, numerals.2, by simp, by simp⟩
    have spelled : "10000000000000000.0".toList = pointText false ('1' :: List.replicate 16 '0') ['0'] := by decide
    have value : Reader.decimal false (Reader.natOf ('1' :: List.replicate 16 '0' ++ ['0'])) (-1) = sampleGreat := by
      decide +kernel
    exact aloneParses (pointSpells parts spelled) (.number (value ▸ pointRead parts spelled))
  · have normal : Normal 5000000000000000 1 := by constructor <;> norm_num [leastExponent, greatestExponent]
    refine (numberReadBack normal false).2 ?_ _
    rintro ⟨-, short⟩
    norm_num at short

end Expr
end Stencil
