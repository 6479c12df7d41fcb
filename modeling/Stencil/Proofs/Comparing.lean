import Stencil.Proofs.Spelling
import Stencil.Proofs.Rounding

/-! How whole numbers compare, as themselves and as the texts of their digits. Only equality of two numbers is a
comparison of whole numbers. All else compares what they are rounded to, so that numbers that are apart may count as
equal, but never in the wrong order; and a number beyond the greatest one is refused. -/
namespace Stencil

namespace Binary64

variable {n : Nat}

theorem shortRounded (some : 0 < n) (short : n < 2 ^ 53) : rounded n 1 = n ∧ ¬ Beyond n 1 := by
  obtain ⟨low, -⟩ := quotientLogBounds some Nat.one_pos
  have room : exponentOf n 1 ≤ 0 := by
    have reach : (2 : ℚ) ^ quotientLog n 1 < (2 : ℚ) ^ (53 : Int) := by
      have cast : (n : ℚ) < 2 ^ 53 := by exact_mod_cast short
      calc (2 : ℚ) ^ quotientLog n 1 ≤ (n : ℚ) / (1 : Nat) := low
        _ < (2 : ℚ) ^ (53 : Int) := by simpa using cast
    have log := (zpow_lt_zpow_iff_right₀ (by norm_num : (1 : ℚ) < 2)).mp reach
    unfold exponentOf leastExponent
    omega
  have unit : (scaleDown n 1 (exponentOf n 1)).2 = 1 := by
    unfold scaleDown
    split
    · have none : exponentOf n 1 = 0 := by omega
      simp [none]
    · rfl
  obtain ⟨-, ratio⟩ := @scaledRatio n 1 Nat.one_pos (exponentOf n 1)
  have mantissa : mantissaOf n 1 = (scaleDown n 1 (exponentOf n 1)).1 := by
    have whole := roundDivWhole Nat.one_pos (scaleDown n 1 (exponentOf n 1)).1
    rw [Nat.mul_one] at whole
    rw [mantissaOf, unit, whole]
  constructor
  · rw [unit, Nat.cast_one, div_one, div_one] at ratio
    rw [rounded, mantissa, ratio, div_mul_cancel₀ _ (zpow_ne_zero _ (by norm_num))]
  · rintro (above | ⟨greatest, -⟩)
    · unfold greatestExponent at above
      omega
    · unfold greatestExponent at greatest
      omega

/- A whole number with no more digits than a mantissa is rounded to itself, and so is the one behind them. -/
theorem wholeRounded (some : 0 < n) (short : n ≤ 2 ^ 53) : rounded n 1 = n ∧ ¬ Beyond n 1 := by
  rcases short.lt_or_eq with below | rfl
  · exact shortRounded some below
  · have mantissa : mantissaOf (2 ^ 53) 1 = 2 ^ 52 := by decide +kernel
    have exponent : exponentOf (2 ^ 53) 1 = 1 := by decide +kernel
    refine ⟨?_, ?_⟩
    · rw [rounded, mantissa, exponent]
      norm_num
    · unfold Beyond
      decide +kernel

/- The least whole number that is rounded to none. -/
def leastBeyond : Nat := 2 ^ 1024 - 2 ^ 970

theorem beyondWhole : Beyond n 1 ↔ leastBeyond ≤ n := by
  have least : Beyond leastBeyond 1 := by
    unfold Beyond
    decide +kernel
  have before : ¬ Beyond (leastBeyond - 1) 1 := by
    unfold Beyond
    decide +kernel
  have some : 1 < leastBeyond := by decide +kernel
  have grows {m k : Nat} (above : 0 < m) (less : m ≤ k) (beyond : Beyond m 1) : Beyond k 1 := by
    refine beyondMono above Nat.one_pos (by omega) Nat.one_pos ?_ beyond
    simpa using less
  constructor
  · intro beyond
    by_contra less
    rcases Nat.eq_zero_or_pos n with rfl | above
    · have nothing : ¬ Beyond 0 1 := by
        unfold Beyond
        decide +kernel
      exact nothing beyond
    · exact before (grows above (by omega) beyond)
  · exact fun reached => grows (by omega) reached least

/- The number nearest to a whole one, or an infinity. -/
def near (n : Int) : Binary64 := ofRatio (n < 0) n.natAbs 1

/- Whether a whole number is rounded to a number. -/
def Fits (n : Int) : Prop := n.natAbs < leastBeyond

instance (n : Int) : Decidable (Fits n) := inferInstanceAs (Decidable (n.natAbs < leastBeyond))

theorem nearNumber (n : Int) : (near n).isNan = false := ofRatioNumber _ _ _

theorem ofIntFits (n : Int) : ofInt? n = if Fits n then some (near n) else none := by
  rw [ofInt?]
  rcases Nat.eq_zero_or_pos n.natAbs with none | above
  · have zero : n = 0 := Int.natAbs_eq_zero.mp none
    subst zero
    decide +kernel
  · obtain ⟨beyond, ends⟩ | ⟨m, e, within, -, ends⟩ := ofRatioCases above 1
    · have unfit : ¬ Fits n := Nat.not_lt.mpr (beyondWhole.mp beyond)
      rw [ends, if_neg unfit]
    · have fits : Fits n := Nat.not_le.mp fun reached => within (beyondWhole.mpr reached)
      rw [near, ends, if_pos fits]

theorem nearMono {m n : Int} (less : m ≤ n) : (near m).level ≤ (near n).level := by
  rw [near, near, wholeLevel, wholeLevel]
  exact ofRatMono (by exact_mod_cast less) _ _

/- A whole number with no more digits than a mantissa keeps its place. -/
theorem nearShort {n : Int} (short : n.natAbs ≤ 2 ^ 53) : (near n).level = (((n : ℚ) : ℝ) : EReal) := by
  rcases Nat.eq_zero_or_pos n.natAbs with none | above
  · obtain rfl := Int.natAbs_eq_zero.mp none
    simp [near, ofRatio, finiteLevel]
  · obtain ⟨exact', within⟩ := wholeRounded above short
    obtain ⟨beyond, -⟩ | ⟨m, e, -, value, ends⟩ := ofRatioCases above 1
    · exact absurd beyond within
    · rw [near, ends, finiteLevel, value, exact', Nat.cast_natAbs]
      congr 2
      split
      · rename_i below
        simp [abs_of_neg (of_decide_eq_true below)]
      · rename_i upward
        simp [abs_of_nonneg (Int.not_lt.mp fun below => upward (decide_eq_true below))]

/- From a number that keeps its place every other one stays apart. -/
theorem nearApart {m n : Int} (short : m.natAbs < 2 ^ 53) (apart : m ≠ n) : (near m).level ≠ (near n).level := by
  have here := nearShort short.le
  rcases lt_or_gt_of_ne apart with below | above
  · have next := nearMono (Int.add_one_le_of_lt below)
    rw [nearShort (by omega : (m + 1).natAbs ≤ 2 ^ 53)] at next
    refine (lt_of_lt_of_le ?_ next).ne
    rw [here]
    exact_mod_cast Int.lt_succ m
  · have next := nearMono (Int.le_sub_one_of_lt above)
    rw [nearShort (by omega : (m - 1).natAbs ≤ 2 ^ 53)] at next
    refine (lt_of_le_of_lt next ?_).ne'
    rw [here]
    exact_mod_cast Int.pred_self_lt m

/- How two whole numbers compare once they are rounded. -/
def nearly (m n : Int) : Ordering := if (near m).same (near n) then .eq else Ord.compare m n

theorem compareNear (m n : Int) : (near m).compare? (near n) = some (nearly m n) := by
  have levels := compareLevel (nearNumber m) (nearNumber n)
  unfold nearly same
  rcases lt_trichotomy m n with below | rfl | above
  · rcases (nearMono below.le).lt_or_eq with apart | close
    · rw [levels, if_pos apart, compare_lt_iff_lt.mpr below]
      rfl
    · rw [levels, if_neg close.not_lt, if_pos close]
      rfl
  · rw [levels, if_neg (lt_irrefl _), if_pos rfl]
    rfl
  · rcases (nearMono above.le).lt_or_eq with apart | close
    · rw [levels, if_neg apart.not_gt, if_neg apart.ne', compare_gt_iff_gt.mpr above]
      rfl
    · rw [levels, if_neg close.not_gt, if_pos close.symm]
      rfl

theorem nearlyShort {m n : Int} (short : m.natAbs < 2 ^ 53 ∨ n.natAbs < 2 ^ 53) : nearly m n = Ord.compare m n := by
  rcases eq_or_ne m n with rfl | apart
  · have same : Ord.compare m m = .eq := compare_eq_iff_eq.mpr rfl
    rw [nearly, same, ite_self]
  · have levels : (near m).level ≠ (near n).level := by
      rcases short with first | second
      · exact nearApart first apart
      · exact (nearApart second apart.symm).symm
    have unequal : (near m).same (near n) = false := by
      rw [same, compareLevel (nearNumber m) (nearNumber n), if_neg levels]
      split <;> rfl
    rw [nearly, unequal, if_neg Bool.false_ne_true]

end Binary64

namespace Reader

open Binary64 Stencil.Expr Text

/- A decimal that is too long to be computed is beyond the greatest number. -/
theorem decimalWhole (n : Int) : decimal (n < 0) n.natAbs 0 = near n := by
  have noPlace : ¬ ((Nat.toDigits 10 n.natAbs).length : Int) + 0 < -400 := by omega
  unfold decimal near
  dsimp only
  rw [decide_eq_false noPlace, Bool.or_false]
  split
  · rename_i none
    rw [of_decide_eq_true none]
  · rename_i some
    split
    · rename_i long
      have above : 0 < n.natAbs := Nat.pos_of_ne_zero fun none => some (decide_eq_true none)
      have reached : leastBeyond ≤ n.natAbs :=
        Nat.le_trans (by decide +kernel) (digitsLong 400 (by decide) (by omega))
      obtain ⟨-, ends⟩ | ⟨-, -, within, -⟩ := ofRatioCases above 1
      · rw [ends]
      · exact absurd (beyondWhole.mpr reached) within
    · simp

/- The digits of a whole number are read as what it is rounded to. -/
theorem wholeRead (n : Int) : real? (trim (toString n)) = some (near n) := by
  have numerals := naturalDigits n.natAbs
  have written : Nat.toDigits 10 n.natAbs ≠ [] := Nat.toDigits_ne_nil
  have spelled : (toString n).toList =
      if decide (n < 0) then '-' :: Nat.toDigits 10 n.natAbs else Nat.toDigits 10 n.natAbs := by
    simp only [integerText, decide_eq_true_eq]
  obtain ⟨solid, ascii, cut⟩ := signedDigits spelled numerals written
  have first : ∀ c ∈ (toString n).toList.head?, isBlank c = false := fun c here => solid c (List.mem_of_mem_head? here)
  have last : ∀ c ∈ (toString n).toList.getLast?, isBlank c = false := fun c here => solid c (List.mem_of_getLast? here)
  have plain : '_' ∉ (toString n).toList := by
    rw [spelled]
    intro joint
    split at joint
    · simp only [List.mem_cons, Char.reduceEq, false_or] at joint
      exact (numerals '_' joint).sign (by simp)
    · exact (numerals '_' joint).sign (by simp)
  have digits : ∀ c ∈ Nat.toDigits 10 n.natAbs, c.isDigit = true := fun c member => (numerals c member).digit
  have noWord {word : String} (letter : ∀ c ∈ word.toList.head?, c.isDigit = false) :
      (String.ofList (lowerAscii (Nat.toDigits 10 n.natAbs)) == word) = false := by
    obtain ⟨d, rest, same⟩ := List.exists_cons_of_ne_nil written
    rw [same]
    exact digitNoWord (numerals d (by simp [same])) rest letter
  have read : real? (toString n) = some (decimal (n < 0) n.natAbs 0) := by
    rw [real?, marginSolid first last, ascii, joinedPlain plain]
    simp only [Option.bind_eq_bind, Option.bind_some, cut, @noWord "inf" (by simp), @noWord "infinity" (by simp),
      @noWord "nan" (by simp), List.takeWhile_eq_self_iff.mpr digits, List.dropWhile_eq_nil_iff.mpr digits]
    simp [exponent?, natOfDigits]
  rw [trim, stripWhole first last, String.ofList_toList, read, decimalWhole]

end Reader

namespace Relation

/- The relations that numbers can stand in. -/
def ordering : List Relation := [less, atMost, greater, atLeast]

def numeric : List Relation := equal :: notEqual :: ordering

/- What a relation says of two numbers that compare in a certain way. -/
def tells (r : Relation) (o : Ordering) : Bool :=
  match r with
  | equal => o == .eq
  | notEqual => o != .eq
  | less => o == .lt
  | atMost => o != .gt
  | greater => o == .gt
  | atLeast => o != .lt
  | _ => false

end Relation

namespace Value

open Binary64

/- An operand that is a number, or the text of its digits. -/
structure Stands (v : Value) (n : Int) (fits : Prop) [Decidable fits] : Prop where
  real : v.real? = if fits then .ok (some (near n)) else .error .tooLarge

theorem standsInt (n : Int) : Stands (.int n) n (Fits n) := by
  constructor
  rw [real?, ofIntFits]
  by_cases fits : Fits n
  · rw [if_pos fits, if_pos fits]
  · rw [if_neg fits, if_neg fits]

theorem standsText (n : Int) : Stands (.str (toString n)) n True := by
  constructor
  rw [real?, Reader.wholeRead, if_pos trivial]

variable {a b : Value} {m n : Int} {first second : Prop} [Decidable first] [Decidable second]

theorem realsStand (left : Stands a m first) (right : Stands b n second) :
    reals? a b = if first ∧ second then .ok (some (near m, near n)) else .error .tooLarge := by
  rw [reals?, left.real, right.real]
  by_cases fits : first
  · by_cases fits' : second
    · rw [if_pos fits, if_pos fits', if_pos ⟨fits, fits'⟩]
      rfl
    · have refused : ¬ (first ∧ second) := fun both => fits' both.2
      rw [if_pos fits, if_neg fits', if_neg refused]
      rfl
  · have refused : ¬ (first ∧ second) := fun both => fits both.1
    rw [if_neg fits, if_neg refused]
    rfl

theorem compareOrdering {r : Relation} (member : r ∈ Relation.ordering) (left : Stands a m first)
    (right : Stands b n second) (ordered : order? a b = (do return (← reals? a b).bind fun p => p.1.compare? p.2)) :
    Value.compare r a b = if first ∧ second then .ok (r.tells (nearly m n)) else .error .tooLarge := by
  rw [realsStand left right] at ordered
  simp only [Relation.ordering, List.mem_cons, List.not_mem_nil, or_false] at member
  by_cases fits : first ∧ second
  · rw [if_pos fits] at ordered ⊢
    simp only [bind, Except.bind, Option.bind, compareNear, pure, Except.pure] at ordered
    rcases member with rfl | rfl | rfl | rfl <;>
      simp only [Value.compare, ordered, bind, Except.bind] <;> cases nearly m n <;> rfl
  · rw [if_neg fits] at ordered ⊢
    simp only [bind, Except.bind] at ordered
    rcases member with rfl | rfl | rfl | rfl <;> simp only [Value.compare, ordered, bind, Except.bind]

/- Where equality is looked for among the rounded numbers too. -/
theorem compareMixed {r : Relation} (member : r ∈ Relation.numeric) (left : Stands a m first)
    (right : Stands b n second) (ordered : order? a b = (do return (← reals? a b).bind fun p => p.1.compare? p.2))
    (equals : looselyEqual a b = (do return ((← reals? a b).map fun p => p.1.same p.2).getD false)) :
    Value.compare r a b = if first ∧ second then .ok (r.tells (nearly m n)) else .error .tooLarge := by
  rw [realsStand left right] at equals
  have same : (near m).same (near n) = (nearly m n == .eq) := by
    rw [Binary64.same, compareNear]
    rfl
  simp only [Relation.numeric, List.mem_cons] at member
  rcases member with rfl | rfl | member
  · rw [Value.compare, equals]
    by_cases fits : first ∧ second
    · rw [if_pos fits, if_pos fits, Relation.tells, ← same]
      rfl
    · rw [if_neg fits, if_neg fits]
      rfl
  · rw [Value.compare, equals]
    by_cases fits : first ∧ second
    · rw [if_pos fits, if_pos fits, Relation.tells, bne, ← same]
      rfl
    · rw [if_neg fits, if_neg fits]
      rfl
  · exact compareOrdering member left right ordered

/- How two whole numbers compare. Whether they are equal is told exactly. All else is told of what they are rounded to,
as is everything where one of them is the text of its digits: those that are rounded to the same count as equal, and
no others change their order; a number that is rounded to none is refused, unless it is a text. Nothing is lost where
one of the two has no more digits than a mantissa. -/
theorem wholesCompare (m n : Int) :
    (∀ r ∈ [Relation.equal, .notEqual], Value.compare r (.int m) (.int n) = .ok (r.tells (Ord.compare m n))) ∧
    (∀ r ∈ Relation.ordering, Value.compare r (.int m) (.int n) =
      if Fits m ∧ Fits n then .ok (r.tells (nearly m n)) else .error .tooLarge) ∧
    (∀ r ∈ Relation.numeric, Value.compare r (.int m) (.str (toString n)) =
      if Fits m then .ok (r.tells (nearly m n)) else .error .tooLarge) ∧
    (∀ r ∈ Relation.numeric, Value.compare r (.str (toString m)) (.int n) =
      if Fits n then .ok (r.tells (nearly m n)) else .error .tooLarge) ∧
    (m.natAbs < 2 ^ 53 ∨ n.natAbs < 2 ^ 53 → nearly m n = Ord.compare m n) := by
  refine ⟨fun r member => ?_, fun r member => ?_, fun r member => ?_, fun r member => ?_, nearlyShort⟩
  · have same : (m == n) = (Ord.compare m n == .eq) := by
      rw [Bool.eq_iff_iff, beq_iff_eq, beq_iff_eq, compare_eq_iff_eq]
    simp only [List.mem_cons, List.not_mem_nil, or_false] at member
    rcases member with rfl | rfl
    · rw [Relation.tells, ← same]
      rfl
    · rw [Relation.tells, bne, ← same]
      rfl
  · exact compareOrdering member (standsInt m) (standsInt n) rfl
  · have compared := compareMixed member (standsInt m) (standsText n) rfl rfl
    simpa only [and_true] using compared
  · have compared := compareMixed member (standsText m) (standsInt n) rfl rfl
    simpa only [true_and] using compared

/- Of two numbers that have one digit too many the greater one does not count as greater. -/
theorem neighboursEqual : ¬ ∀ (m n : Int) (r : Relation), r ∈ Relation.numeric →
    Value.compare r (.int m) (.int n) = .ok (r.tells (Ord.compare m n)) := by
  intro always
  have told := always (2 ^ 53) (2 ^ 53 + 1) .less (by simp [Relation.numeric, Relation.ordering])
  have equal : Value.compare .less (.int (2 ^ 53)) (.int (2 ^ 53 + 1)) = .ok false := by decide +kernel
  rw [equal] at told
  cases told

end Value
end Stencil
