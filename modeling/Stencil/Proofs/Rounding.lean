import Mathlib
import Stencil.Number.Binary64
import Stencil.Settings.Render

/-! Rounding keeps the order. What is not greater before an operation is not greater after it, whatever is lost
by rounding; so a greater limit never gives an earlier deadline. -/
namespace Stencil.Binary64

/- A fraction divided by a power of two, up or down. -/
theorem scaledRatio {n d : Nat} (positive : 0 < d) (e : Int) :
    0 < (scaleDown n d e).2 ∧
      ((scaleDown n d e).1 : ℚ) / (scaleDown n d e).2 = (n : ℚ) / d / (2 : ℚ) ^ e := by
  have power (k : Nat) : 0 < Nat.pow 2 k := Nat.pow_pos (by omega)
  unfold scaleDown
  split
  · rename_i up
    obtain ⟨k, rfl⟩ := Int.eq_ofNat_of_zero_le up
    refine ⟨Nat.mul_pos positive (power _), ?_⟩
    simp [div_div]
  · rename_i down
    obtain ⟨k, same⟩ := Int.eq_ofNat_of_zero_le (Int.le_of_lt (Int.neg_pos_of_neg (Int.not_le.mp down)))
    obtain rfl : e = -(k : Int) := by omega
    refine ⟨positive, ?_⟩
    simp [div_eq_mul_inv, mul_right_comm]

theorem roundDivBounds (a b : Nat) : a / b ≤ roundDiv a b ∧ roundDiv a b ≤ a / b + 1 := by
  unfold roundDiv
  dsimp only
  split <;> omega

/- Of two fractions between the same whole numbers, the greater one is not rounded down if the other is not. -/
theorem remainderMono {a b c d : Nat} (first : 0 < b) (second : 0 < d) (same : a / b = c / d)
    (less : a % b * d ≤ c % d * b) : roundDiv a b ≤ roundDiv c d := by
  unfold roundDiv
  dsimp only
  rw [same]
  split
  · split <;> omega
  · rename_i up
    split
    · rename_i down
      simp only [Bool.or_eq_true, Bool.and_eq_true, decide_eq_true_eq, beq_iff_eq, not_or, not_and] at up down
      rcases down with below | ⟨tie, even⟩
      · have short : 2 * (a % b) < b := by nlinarith
        exact absurd short up.1
      · have close : 2 * (a % b) ≤ b := by nlinarith
        exact absurd even (up.2 (by omega))
    · exact le_rfl

theorem roundDivMono {a b c d : Nat} (first : 0 < b) (second : 0 < d) (less : (a : ℚ) / b ≤ (c : ℚ) / d) :
    roundDiv a b ≤ roundDiv c d := by
  have whole : a / b ≤ c / d := by
    rw [← Nat.floor_div_eq_div (K := ℚ) a b, ← Nat.floor_div_eq_div (K := ℚ) c d]
    exact Nat.floor_le_floor less
  have crossed : a * d ≤ c * b := by
    rw [div_le_div_iff₀ (by exact_mod_cast first) (by exact_mod_cast second)] at less
    exact_mod_cast less
  rcases Nat.lt_or_eq_of_le whole with below | same
  · have left := roundDivBounds a b
    have right := roundDivBounds c d
    omega
  · refine remainderMono first second same ?_
    have left := Nat.div_add_mod a b
    have right := Nat.div_add_mod c d
    rw [same] at left
    nlinarith

theorem roundDivWhole {b : Nat} (positive : 0 < b) (m : Nat) : roundDiv (m * b) b = m := by
  simp [roundDiv, Nat.mul_div_cancel m positive, positive]

theorem logBounds {n : Nat} (positive : 0 < n) : (2 : ℚ) ^ n.log2 ≤ n ∧ (n : ℚ) < (2 : ℚ) ^ (n.log2 + 1) := by
  have low := Nat.log2_self_le (Nat.ne_of_gt positive)
  have high := @Nat.lt_log2_self n
  exact ⟨by exact_mod_cast low, by exact_mod_cast high⟩

/- The greatest power of two that is not greater than a fraction. -/
theorem quotientLogBounds {n d : Nat} (some : 0 < n) (positive : 0 < d) :
    (2 : ℚ) ^ quotientLog n d ≤ (n : ℚ) / d ∧ (n : ℚ) / d < (2 : ℚ) ^ (quotientLog n d + 1) := by
  have base : (2 : ℚ) ≠ 0 := by norm_num
  have size : (0 : ℚ) < d := by exact_mod_cast positive
  obtain ⟨low, high⟩ := logBounds some
  obtain ⟨low', high'⟩ := logBounds positive
  -- The logarithms of the two numbers fix the power up to one.
  have below : (2 : ℚ) ^ ((n.log2 : Int) - d.log2 - 1) < (n : ℚ) / d := by
    have shift : (2 : ℚ) ^ ((n.log2 : Int) - d.log2 - 1) * (2 : ℚ) ^ (d.log2 + 1) = (2 : ℚ) ^ n.log2 := by
      rw [← zpow_natCast, ← zpow_natCast, ← zpow_add₀ base]
      congr 1
      push_cast
      ring
    rw [lt_div_iff₀ size]
    calc (2 : ℚ) ^ ((n.log2 : Int) - d.log2 - 1) * d
        < (2 : ℚ) ^ ((n.log2 : Int) - d.log2 - 1) * (2 : ℚ) ^ (d.log2 + 1) := by gcongr
      _ = (2 : ℚ) ^ n.log2 := shift
      _ ≤ n := low
  have above : (n : ℚ) / d < (2 : ℚ) ^ ((n.log2 : Int) - d.log2 + 1) := by
    have shift : (2 : ℚ) ^ ((n.log2 : Int) - d.log2 + 1) * (2 : ℚ) ^ d.log2 = (2 : ℚ) ^ (n.log2 + 1) := by
      rw [← zpow_natCast, ← zpow_natCast, ← zpow_add₀ base]
      congr 1
      push_cast
      ring
    rw [div_lt_iff₀ size]
    calc (n : ℚ) < (2 : ℚ) ^ (n.log2 + 1) := high
      _ = (2 : ℚ) ^ ((n.log2 : Int) - d.log2 + 1) * (2 : ℚ) ^ d.log2 := shift.symm
      _ ≤ (2 : ℚ) ^ ((n.log2 : Int) - d.log2 + 1) * d := by gcongr
  obtain ⟨solid, ratio⟩ := @scaledRatio n d positive ((n.log2 : Int) - d.log2)
  have compared : (scaleDown n d ((n.log2 : Int) - d.log2)).2 ≤ (scaleDown n d ((n.log2 : Int) - d.log2)).1 ↔
      (2 : ℚ) ^ ((n.log2 : Int) - d.log2) ≤ (n : ℚ) / d := by
    rw [← one_le_div₀ (zpow_pos (by norm_num) _), ← ratio, one_le_div₀ (by exact_mod_cast solid), Nat.cast_le]
  unfold quotientLog
  dsimp only
  split
  · rename_i reaches
    exact ⟨compared.mp reaches, above⟩
  · rename_i short
    rw [compared, not_le] at short
    exact ⟨below.le, by simpa using short⟩

/- The place of a number among the reals and the two infinities. A NaN has none. -/
noncomputable def level : Binary64 → EReal
  | .nan _ => ⊥
  | .infinite negative => if negative then ⊥ else ⊤
  | .finite negative m e => (((Binary64.finite negative m e).toRat?.getD 0 : ℚ) : ℝ)

open Classical in
theorem compareLevel {x y : Binary64} (first : x.isNan = false) (second : y.isNan = false) :
    x.compare? y = some (if x.level < y.level then .lt else if x.level = y.level then .eq else .gt) := by
  cases x with
  | nan => cases first
  | infinite s =>
    cases y with
    | nan => cases second
    | infinite t => cases s <;> cases t <;> simp [compare?, level]
    | finite t n f => cases s <;> simp [compare?, level]
  | finite s m e =>
    cases y with
    | nan => cases second
    | infinite t => cases t <;> simp [compare?, level]
    | finite t n f => simp [compare?, level]

theorem ltNumbers {x y : Binary64} (less : x.lt y = true ∨ x.le y = true) : x.isNan = false ∧ y.isNan = false := by
  cases x with
  | nan => simp [le, lt, compare?] at less
  | infinite | finite => cases y <;> simp_all [le, lt, compare?, isNan]

theorem ltLevel {x y : Binary64} : x.lt y = true ↔ x.isNan = false ∧ y.isNan = false ∧ x.level < y.level := by
  constructor
  · intro less
    obtain ⟨first, second⟩ := ltNumbers (.inl less)
    refine ⟨first, second, ?_⟩
    by_contra notLess
    rw [lt, compareLevel first second, if_neg notLess] at less
    split at less <;> simp at less
  · rintro ⟨first, second, less⟩
    rw [lt, compareLevel first second, if_pos less]
    rfl

theorem leLevel {x y : Binary64} : x.le y = true ↔ x.isNan = false ∧ y.isNan = false ∧ x.level ≤ y.level := by
  constructor
  · intro less
    obtain ⟨first, second⟩ := ltNumbers (.inr less)
    refine ⟨first, second, ?_⟩
    by_contra above
    rw [not_le] at above
    rw [le, lt, compareLevel first second, if_neg above.not_gt, if_neg above.ne'] at less
    simp at less
  · rintro ⟨first, second, less⟩
    rw [le, lt, compareLevel first second]
    rcases less.lt_or_eq with below | same
    · simp [below]
    · simp [same]

/- The exponent and the mantissa that a fraction is rounded to. -/
def exponentOf (n d : Nat) : Int := max (quotientLog n d - 52) leastExponent

def mantissaOf (n d : Nat) : Nat :=
  roundDiv (scaleDown n d (exponentOf n d)).1 (scaleDown n d (exponentOf n d)).2

variable {n d n' d' : Nat}

theorem quotientLogMono (some : 0 < n) (positive : 0 < d) (some' : 0 < n') (positive' : 0 < d')
    (less : (n : ℚ) / d ≤ (n' : ℚ) / d') : quotientLog n d ≤ quotientLog n' d' := by
  obtain ⟨low, -⟩ := quotientLogBounds some positive
  obtain ⟨-, high⟩ := quotientLogBounds some' positive'
  have between : (2 : ℚ) ^ quotientLog n d < (2 : ℚ) ^ (quotientLog n' d' + 1) :=
    (low.trans less).trans_lt high
  have powers := (zpow_lt_zpow_iff_right₀ (by norm_num : (1 : ℚ) < 2)).mp between
  omega

theorem mantissaMost (some : 0 < n) (positive : 0 < d) : mantissaOf n d ≤ 2 ^ 53 := by
  have base : (2 : ℚ) ≠ 0 := by norm_num
  obtain ⟨-, high⟩ := quotientLogBounds some positive
  obtain ⟨solid, ratio⟩ := @scaledRatio n d positive (exponentOf n d)
  have fits : (n : ℚ) / d / (2 : ℚ) ^ exponentOf n d ≤ ((2 ^ 53 * 1 : Nat) : ℚ) / (1 : Nat) := by
    rw [div_le_iff₀ (zpow_pos (by norm_num) _)]
    have room : quotientLog n d + 1 ≤ 53 + exponentOf n d := by
      unfold exponentOf
      omega
    calc (n : ℚ) / d ≤ (2 : ℚ) ^ (quotientLog n d + 1) := high.le
      _ ≤ (2 : ℚ) ^ (53 + exponentOf n d) := zpow_le_zpow_right₀ (by norm_num) room
      _ = ((2 ^ 53 * 1 : Nat) : ℚ) / (1 : Nat) * (2 : ℚ) ^ exponentOf n d := by
        rw [zpow_add₀ base]
        norm_num
  rw [← ratio] at fits
  have rounded := roundDivMono solid Nat.one_pos fits
  rwa [roundDivWhole Nat.one_pos] at rounded

/- Above the least exponent the mantissa has all its digits. -/
theorem mantissaLeast (some : 0 < n) (positive : 0 < d) (above : leastExponent < exponentOf n d) :
    2 ^ 52 ≤ mantissaOf n d := by
  have base : (2 : ℚ) ≠ 0 := by norm_num
  obtain ⟨low, -⟩ := quotientLogBounds some positive
  obtain ⟨solid, ratio⟩ := @scaledRatio n d positive (exponentOf n d)
  have exact' : quotientLog n d = 52 + exponentOf n d := by
    unfold exponentOf at above ⊢
    omega
  have fits : ((2 ^ 52 * 1 : Nat) : ℚ) / (1 : Nat) ≤ (n : ℚ) / d / (2 : ℚ) ^ exponentOf n d := by
    rw [le_div_iff₀ (zpow_pos (by norm_num) _)]
    calc ((2 ^ 52 * 1 : Nat) : ℚ) / (1 : Nat) * (2 : ℚ) ^ exponentOf n d
        = (2 : ℚ) ^ (52 + exponentOf n d) := by
          rw [zpow_add₀ base]
          norm_num
      _ = (2 : ℚ) ^ quotientLog n d := by rw [exact']
      _ ≤ (n : ℚ) / d := low
  rw [← ratio] at fits
  have rounded := roundDivMono Nat.one_pos solid fits
  rwa [roundDivWhole Nat.one_pos] at rounded

theorem exponentMono (some : 0 < n) (positive : 0 < d) (some' : 0 < n') (positive' : 0 < d')
    (less : (n : ℚ) / d ≤ (n' : ℚ) / d') : exponentOf n d ≤ exponentOf n' d' := by
  have logs := quotientLogMono some positive some' positive' less
  unfold exponentOf
  omega

theorem mantissaMono (positive : 0 < d) (positive' : 0 < d') (same : exponentOf n d = exponentOf n' d')
    (less : (n : ℚ) / d ≤ (n' : ℚ) / d') : mantissaOf n d ≤ mantissaOf n' d' := by
  obtain ⟨solid, ratio⟩ := @scaledRatio n d positive (exponentOf n d)
  obtain ⟨solid', ratio'⟩ := @scaledRatio n' d' positive' (exponentOf n' d')
  refine roundDivMono solid solid' ?_
  rw [ratio, ratio', same]
  gcongr

/- What a fraction is rounded to, and whether that is too great for a number. -/
def rounded (n d : Nat) : ℚ := mantissaOf n d * (2 : ℚ) ^ exponentOf n d

def Beyond (n d : Nat) : Prop :=
  greatestExponent < exponentOf n d ∨ exponentOf n d = greatestExponent ∧ mantissaOf n d = 2 ^ 53

theorem beyondMono (some : 0 < n) (positive : 0 < d) (some' : 0 < n') (positive' : 0 < d')
    (less : (n : ℚ) / d ≤ (n' : ℚ) / d') (beyond : Beyond n d) : Beyond n' d' := by
  have exponents := exponentMono some positive some' positive' less
  rcases beyond with above | ⟨greatest, full⟩
  · exact .inl (above.trans_le exponents)
  · rcases exponents.lt_or_eq with below | same
    · exact .inl (greatest ▸ below)
    · have mantissas := mantissaMono positive positive' same less
      have most := mantissaMost some' positive'
      exact .inr ⟨same ▸ greatest, by omega⟩

theorem roundedMono (some : 0 < n) (positive : 0 < d) (some' : 0 < n') (positive' : 0 < d')
    (less : (n : ℚ) / d ≤ (n' : ℚ) / d') : rounded n d ≤ rounded n' d' := by
  have base : (2 : ℚ) ≠ 0 := by norm_num
  unfold rounded
  rcases (exponentMono some positive some' positive' less).lt_or_eq with below | same
  · -- The mantissas of two exponents meet at the power of two between them.
    have most : (mantissaOf n d : ℚ) ≤ 2 ^ 53 := by exact_mod_cast mantissaMost some positive
    have least : (2 : ℚ) ^ 52 ≤ mantissaOf n' d' := by
      exact_mod_cast mantissaLeast some' positive' ((le_max_right _ _).trans_lt below)
    calc (mantissaOf n d : ℚ) * (2 : ℚ) ^ exponentOf n d
        ≤ 2 ^ 53 * (2 : ℚ) ^ exponentOf n d := by gcongr
      _ = 2 ^ 52 * (2 : ℚ) ^ (exponentOf n d + 1) := by
        rw [zpow_add₀ base]
        ring
      _ ≤ 2 ^ 52 * (2 : ℚ) ^ exponentOf n' d' := by
        gcongr
        · norm_num
        · omega
      _ ≤ mantissaOf n' d' * (2 : ℚ) ^ exponentOf n' d' := by gcongr
  · have mantissas := mantissaMono positive positive' same less
    rw [same]
    gcongr

theorem finiteValue (negative : Bool) (m : Nat) (e : Int) : (Binary64.finite negative m e).toRat? =
    some (if negative then -(m * (2 : ℚ) ^ e) else m * (2 : ℚ) ^ e) := by
  obtain ⟨solid, ratio⟩ := @scaledRatio m 1 Nat.one_pos (-e)
  have value : ((scaleDown m 1 (-e)).1 : ℚ) / (scaleDown m 1 (-e)).2 = m * (2 : ℚ) ^ e := by
    rw [ratio, zpow_neg]
    simp
  simp only [toRat?, magnitude, Rat.mkRat_eq_div, Option.some.injEq]
  rw [← value]
  split <;> push_cast <;> ring

theorem finiteLevel (negative : Bool) (m : Nat) (e : Int) :
    level (.finite negative m e) = (((if negative then -(m * (2 : ℚ) ^ e) else m * (2 : ℚ) ^ e : ℚ) : ℝ) : EReal) := by
  rw [level, finiteValue, Option.getD_some]

theorem ofRatioEnds (some : 0 < n) (negative : Bool) : ofRatio negative n d =
    if mantissaOf n d = 2 ^ 53 then
      if greatestExponent < exponentOf n d + 1 then .infinite negative
      else .finite negative (2 ^ 52) (exponentOf n d + 1)
    else if greatestExponent < exponentOf n d then .infinite negative
    else .finite negative (mantissaOf n d) (exponentOf n d) := by
  have solid : ¬ n = 0 := by omega
  have shape : ofRatio negative n d =
      let p := if mantissaOf n d = Nat.pow 2 53 then (Nat.pow 2 52, exponentOf n d + 1)
        else (mantissaOf n d, exponentOf n d)
      if p.2 > greatestExponent then .infinite negative else .finite negative p.1 p.2 := by
    rw [ofRatio, if_neg solid]
    rfl
  rw [shape, Nat.pow_eq, Nat.pow_eq]
  split <;> rfl

/- A fraction is rounded to an infinity or to a number; the sign makes no other difference. -/
theorem ofRatioCases (some : 0 < n) (d : Nat) :
    (Beyond n d ∧ ∀ negative, ofRatio negative n d = .infinite negative) ∨
      ∃ (m : Nat) (e : Int), ¬ Beyond n d ∧ (m : ℚ) * (2 : ℚ) ^ e = rounded n d ∧
        ∀ negative, ofRatio negative n d = .finite negative m e := by
  have base : (2 : ℚ) ≠ 0 := by norm_num
  simp only [ofRatioEnds some]
  by_cases full : mantissaOf n d = 2 ^ 53
  · simp only [if_pos full]
    by_cases above : greatestExponent < exponentOf n d + 1
    · refine .inl ⟨?_, by simp [above]⟩
      rcases (Int.lt_add_one_iff.mp above).lt_or_eq with beyond | same
      · exact .inl beyond
      · exact .inr ⟨same.symm, full⟩
    · refine .inr ⟨2 ^ 52, exponentOf n d + 1, ?_, ?_, by simp [above]⟩
      · rintro (beyond | ⟨same, -⟩) <;> omega
      · rw [rounded, full, zpow_add₀ base]
        norm_num
        ring
  · simp only [if_neg full]
    by_cases above : greatestExponent < exponentOf n d
    · exact .inl ⟨.inl above, by simp [above]⟩
    · refine .inr ⟨_, _, ?_, rfl, by simp [above]⟩
      rintro (beyond | ⟨-, same⟩)
      · exact above beyond
      · exact full same

/- The place of a fraction that is rounded without a sign. -/
noncomputable def magnitudeLevel (n d : Nat) : EReal := (ofRatio false n d).level

theorem ofRatioNumber (n d : Nat) (negative : Bool) : (ofRatio negative n d).isNan = false := by
  rcases Nat.eq_zero_or_pos n with rfl | some
  · simp [ofRatio, isNan]
  · obtain ⟨-, ends⟩ | ⟨m, e, -, -, ends⟩ := ofRatioCases some d
    · rw [ends]
      rfl
    · rw [ends]
      rfl

theorem ofRatioNegative (n d : Nat) : (ofRatio true n d).level = -magnitudeLevel n d := by
  unfold magnitudeLevel
  rcases Nat.eq_zero_or_pos n with rfl | some
  · simp [ofRatio, finiteLevel]
  · obtain ⟨-, ends⟩ | ⟨m, e, -, -, ends⟩ := ofRatioCases some d
    · simp [ends, level]
    · simp [ends, finiteLevel]

theorem magnitudePositive (n d : Nat) : 0 ≤ magnitudeLevel n d := by
  unfold magnitudeLevel
  rcases Nat.eq_zero_or_pos n with rfl | some
  · simp [ofRatio, finiteLevel]
  · obtain ⟨-, ends⟩ | ⟨m, e, -, -, ends⟩ := ofRatioCases some d
    · simp [ends, level]
    · have above : (0 : ℚ) ≤ m * (2 : ℚ) ^ e := by positivity
      rw [ends, finiteLevel]
      exact_mod_cast above

theorem magnitudeMono (positive : 0 < d) (positive' : 0 < d') (less : (n : ℚ) / d ≤ (n' : ℚ) / d') :
    magnitudeLevel n d ≤ magnitudeLevel n' d' := by
  rcases Nat.eq_zero_or_pos n with rfl | some
  · have nothing : magnitudeLevel 0 d = 0 := by simp [magnitudeLevel, ofRatio, finiteLevel]
    rw [nothing]
    exact magnitudePositive n' d'
  · have some' : 0 < n' := by
      rcases Nat.eq_zero_or_pos n' with rfl | some'
      · have above : (0 : ℚ) < n / d := by positivity
        rw [Nat.cast_zero, zero_div] at less
        exact absurd less (not_le.mpr above)
      · exact some'
    unfold magnitudeLevel
    obtain ⟨beyond, ends⟩ | ⟨m, e, within, value, ends⟩ := ofRatioCases some d
    · obtain ⟨-, ends'⟩ | ⟨-, -, within, -, -⟩ := ofRatioCases some' d'
      · rw [ends, ends']
      · exact absurd (beyondMono some positive some' positive' less beyond) within
    · obtain ⟨-, ends'⟩ | ⟨m', e', -, value', ends'⟩ := ofRatioCases some' d'
      · rw [ends']
        simp [level]
      · have order := roundedMono some positive some' positive' less
        rw [← value, ← value'] at order
        rw [ends, ends', finiteLevel, finiteLevel]
        exact_mod_cast order

theorem ratioOfRat {q : ℚ} (above : 0 ≤ q) : (q.num.natAbs : ℚ) / q.den = q := by
  have sign : ((q.num.natAbs : Int) : ℚ) = q.num := by
    rw [Int.natAbs_of_nonneg (Rat.num_nonneg.mpr above)]
  calc (q.num.natAbs : ℚ) / q.den = (q.num : ℚ) / q.den := by rw [← sign]; simp
    _ = q := Rat.num_div_den q

theorem ofRatLevel (negative : Bool) (q : ℚ) : (ofRat negative q).level =
    if 0 ≤ q then magnitudeLevel q.num.natAbs q.den else -magnitudeLevel (-q).num.natAbs (-q).den := by
  rw [ofRat]
  by_cases nothing : q.num = 0
  · have zero : q = 0 := Rat.num_eq_zero.mp nothing
    subst zero
    cases negative <;> simp [magnitudeLevel, ofRatio, finiteLevel]
  · rw [if_neg nothing]
    split
    · rename_i above
      have sign : ¬ q.num < 0 := Int.not_lt.mpr (Rat.num_nonneg.mpr above)
      rw [decide_eq_false sign, magnitudeLevel]
    · rename_i below
      have sign : q.num < 0 := Rat.num_neg.mpr (not_le.mp below)
      rw [decide_eq_true sign, ofRatioNegative]
      simp

theorem ofRatMono {q r : ℚ} (less : q ≤ r) (negative negative' : Bool) :
    (ofRat negative q).level ≤ (ofRat negative' r).level := by
  have sized (q : ℚ) : 0 < q.den := q.den_pos
  rw [ofRatLevel, ofRatLevel]
  by_cases above : 0 ≤ q
  · rw [if_pos above, if_pos (above.trans less)]
    refine magnitudeMono (sized _) (sized _) ?_
    rwa [ratioOfRat above, ratioOfRat (above.trans less)]
  · rw [if_neg above]
    by_cases above' : 0 ≤ r
    · rw [if_pos above']
      have below : -magnitudeLevel (-q).num.natAbs (-q).den ≤ 0 := by
        rw [EReal.neg_le, neg_zero]
        exact magnitudePositive _ _
      exact below.trans (magnitudePositive _ _)
    · rw [if_neg above', EReal.neg_le_neg_iff]
      have first : 0 ≤ -q := by linarith
      have second : 0 ≤ -r := by linarith
      refine magnitudeMono (sized _) (sized _) ?_
      rw [ratioOfRat first, ratioOfRat second]
      linarith

/- A fraction need not be in lowest terms. -/
theorem ofRatioAgrees (n : Nat) (positive : 0 < d) (negative : Bool) :
    (ofRatio negative n d).level = (ofRat false (if negative then -((n : ℚ) / d) else (n : ℚ) / d)).level := by
  have reduced {q : ℚ} (above : 0 ≤ q) (same : (n : ℚ) / d = q) :
      magnitudeLevel n d = magnitudeLevel q.num.natAbs q.den := by
    have ratio := ratioOfRat above
    exact le_antisymm (magnitudeMono positive q.den_pos (by rw [ratio, same]))
      (magnitudeMono q.den_pos positive (by rw [ratio, same]))
  have above : (0 : ℚ) ≤ (n : ℚ) / d := by positivity
  cases negative with
  | false =>
    rw [if_neg (by simp), ofRatLevel, if_pos above, ← reduced above rfl]
    rfl
  | true =>
    rw [if_pos rfl, ofRatioNegative, ofRatLevel]
    split
    · rename_i nothing
      have zero : (n : ℚ) / d = 0 := le_antisymm (by linarith) above
      rw [reduced above rfl, zero]
      simp [magnitudeLevel, ofRatio, finiteLevel]
    · rw [reduced above rfl, neg_neg]

theorem divNatLevel (positive : 0 < d) (negative : Bool) (m : Nat) (e : Int) :
    ((Binary64.finite negative m e).divNat d).level =
      (ofRat false (((Binary64.finite negative m e).toRat?.getD 0) / d)).level := by
  obtain ⟨solid, -⟩ := @scaledRatio m 1 Nat.one_pos (-e)
  have denominator : 0 < (scaleDown m 1 (-e)).2 * d := Nat.mul_pos solid positive
  simp only [divNat, magnitude, toRat?, Option.getD_some, Rat.mkRat_eq_div]
  rw [ofRatioAgrees _ denominator]
  congr 2
  cases negative <;> push_cast <;> simp [div_div, neg_div]

theorem divNatMono {x y : Binary64} (positive : 0 < d) (less : x.le y = true) :
    (x.divNat d).le (y.divNat d) = true := by
  obtain ⟨number, number', order⟩ := leLevel.mp less
  have numbers (z : Binary64) (number : z.isNan = false) : (z.divNat d).isNan = false := by
    cases z with
    | nan => cases number
    | infinite => rfl
    | finite => exact ofRatioNumber _ _ _
  refine leLevel.mpr ⟨numbers x number, numbers y number', ?_⟩
  cases x with
  | nan => cases number
  | infinite s =>
    cases s with
    | true => simp [divNat, level]
    | false =>
      cases y with
      | nan => cases number'
      | infinite => exact order
      | finite => simp [level] at order
  | finite s m e =>
    cases y with
    | nan => cases number'
    | infinite t =>
      cases t with
      | true => simp [level] at order
      | false => simp [divNat, level]
    | finite t n f =>
      have values : (Binary64.finite s m e).toRat?.getD 0 ≤ (Binary64.finite t n f).toRat?.getD 0 := by
        simpa [level] using order
      rw [divNatLevel positive, divNatLevel positive]
      exact ofRatMono (by gcongr) _ _

theorem addMono {x y now : Binary64} (less : x.le y = true) (sum : (now.add y).isNan = false)
    (bounded : (now.add y).level < ⊤) : (now.add x).isNan = false ∧ (now.add x).level ≤ (now.add y).level := by
  obtain ⟨number, number', order⟩ := leLevel.mp less
  cases y with
  | nan => cases number'
  | infinite t =>
    cases t with
    | true =>
      -- Nothing else is as low as the second one.
      have same : x = .infinite true := by
        cases x with
        | nan => cases number
        | infinite s => cases s <;> simp_all [level]
        | finite => simp [level] at order
      subst same
      exact ⟨sum, le_rfl⟩
    | false =>
      exfalso
      cases now with
      | nan => cases sum
      | infinite s => cases s <;> simp_all [add, isNan, level]
      | finite => simp [add, level] at bounded
  | finite t n f =>
    cases now with
    | nan => cases sum
    | infinite s =>
      cases s with
      | false => simp [add, level] at bounded
      | true =>
        cases x with
        | nan => cases number
        | infinite r => cases r <;> simp_all [add, isNan, level]
        | finite => exact ⟨rfl, le_rfl⟩
    | finite s m e =>
      cases x with
      | nan => cases number
      | infinite r => cases r <;> simp_all [add, isNan, level]
      | finite r k g =>
        have values : (Binary64.finite r k g).toRat?.getD 0 ≤ (Binary64.finite t n f).toRat?.getD 0 := by
          simpa [level] using order
        exact ⟨ofRatioNumber _ _ _, ofRatMono (by gcongr) _ _⟩

/- What is later than the later of two sums is later than the other. -/
theorem addLater {x y now t : Binary64} (less : x.le y = true) (late : (now.add y).lt t = true) :
    (now.add x).lt t = true := by
  obtain ⟨sum, moment, before⟩ := ltLevel.mp late
  obtain ⟨number, below⟩ := addMono less sum (before.trans_le le_top)
  exact ltLevel.mpr ⟨number, moment, below.trans_lt before⟩

theorem wholeLevel (k : Int) : (ofRatio (k < 0) k.natAbs 1).level = (ofRat false k).level := by
  have value : (if decide (k < 0) then -((k.natAbs : ℚ) / (1 : Nat)) else (k.natAbs : ℚ) / (1 : Nat)) = k := by
    rw [Nat.cast_one, div_one, Nat.cast_natAbs]
    split
    · rename_i below
      simp [abs_of_neg (of_decide_eq_true below)]
    · rename_i above
      simp [abs_of_nonneg (Int.not_lt.mp (fun below => above (decide_eq_true below)))]
  rw [ofRatioAgrees _ Nat.one_pos, value]

/- Whole numbers that are numbers keep their order. -/
theorem ofIntMono {m n : Int} {x y : Binary64} (less : m ≤ n) (first : ofInt? m = some x)
    (second : ofInt? n = some y) : x.le y = true := by
  have same {k : Int} {z : Binary64} (here : ofInt? k = some z) : z = ofRatio (k < 0) k.natAbs 1 := by
    unfold ofInt? at here
    split at here
    · cases here
    · exact (Option.some.inj here).symm
  obtain rfl := same first
  obtain rfl := same second
  refine leLevel.mpr ⟨ofRatioNumber _ _ _, ofRatioNumber _ _ _, ?_⟩
  rw [wholeLevel, wholeLevel]
  exact ofRatMono (by exact_mod_cast less) _ _

end Stencil.Binary64

namespace Stencil.Timeout

/- One limit is not greater than another, as numbers of milliseconds. -/
def AtMost (a b : Timeout) : Prop := ∃ x y, a.real? = some x ∧ b.real? = some y ∧ x.le y = true

theorem wholeAtMost {m n : Int} {x y : Binary64} (less : m ≤ n) (first : (whole m).real? = some x)
    (second : (whole n).real? = some y) : (whole m).AtMost (whole n) :=
  ⟨x, y, first, second, Binary64.ofIntMono less first second⟩

end Stencil.Timeout
