import Stencil.Proofs.Nearest

/-! The shortest digits of a number. Seventeen of them always lie in the interval of the number, so that the
search ends; what it ends with stays between the powers of ten around the number. -/
namespace Stencil.Decimal

open Binary64

/- What a power of two is taken for among the powers of ten is right up to two places. -/
theorem guessNear {q : Int} (least : -1074 ≤ q) (most : q ≤ 1023) :
    (10 : ℚ) ^ (q * 30103 / 100000 - 2) ≤ 2 ^ q ∧ (2 : ℚ) ^ (q + 1) ≤ 10 ^ (q * 30103 / 100000 + 2) := by
  have ups : ∀ p < 1024, 10 ^ (p * 30103 / 100000) ≤ 100 * 2 ^ p ∧ 2 * 2 ^ p ≤ 100 * 10 ^ (p * 30103 / 100000) := by
    decide +kernel
  have downs : ∀ p < 1075, 2 ^ p ≤ 100 * 10 ^ ((p * 30103 + 99999) / 100000) ∧
      2 * 10 ^ ((p * 30103 + 99999) / 100000) ≤ 100 * 2 ^ p := by
    decide +kernel
  have two : (2 : ℚ) ≠ 0 := by norm_num
  have ten : (10 : ℚ) ≠ 0 := by norm_num
  rw [zpow_sub₀ ten, zpow_add₀ ten, zpow_add_one₀ two]
  rcases le_or_gt 0 q with up | down
  · obtain ⟨p, rfl⟩ := Int.eq_ofNat_of_zero_le up
    have guess : (p : Int) * 30103 / 100000 = ((p * 30103 / 100000 : Nat) : Int) := by omega
    obtain ⟨low, high⟩ := ups p (by omega)
    have low' : (10 : ℚ) ^ (p * 30103 / 100000) ≤ 100 * 2 ^ p := by exact_mod_cast low
    have high' : (2 : ℚ) * 2 ^ p ≤ 100 * 10 ^ (p * 30103 / 100000) := by exact_mod_cast high
    rw [guess, zpow_natCast, zpow_natCast]
    constructor <;> norm_num <;> linarith
  · obtain ⟨p, same⟩ := Int.eq_ofNat_of_zero_le (Int.neg_nonneg_of_nonpos down.le)
    obtain rfl : q = -(p : Int) := by omega
    have guess : -(p : Int) * 30103 / 100000 = -(((p * 30103 + 99999) / 100000 : Nat) : Int) := by omega
    obtain ⟨low, high⟩ := downs p (by omega)
    rw [guess, zpow_neg, zpow_neg, zpow_natCast, zpow_natCast]
    generalize (p * 30103 + 99999) / 100000 = h at low high
    have low' : (2 : ℚ) ^ p ≤ 100 * 10 ^ h := by exact_mod_cast low
    have high' : (2 : ℚ) * 10 ^ h ≤ 100 * 2 ^ p := by exact_mod_cast high
    have tens : (0 : ℚ) < 10 ^ h := by positivity
    have twos : (0 : ℚ) < 2 ^ p := by positivity
    constructor
    · rw [inv_eq_one_div, inv_eq_one_div, div_div, div_le_div_iff₀ (by positivity) twos]
      norm_num
      linarith
    · rw [inv_eq_one_div, inv_eq_one_div, one_div_mul_eq_div, one_div_mul_eq_div, div_le_div_iff₀ twos tens]
      norm_num
      linarith

/- The decimal point stands between the powers of ten around a number. -/
theorem pointBounds {v : ℚ} (low : (2 : ℚ) ^ (-1074 : Int) ≤ v) (high : v < (2 : ℚ) ^ (1024 : Int)) :
    (10 : ℚ) ^ (pointOf v - 1) ≤ v ∧ v < (10 : ℚ) ^ pointOf v := by
  have above : 0 < v := lt_of_lt_of_le (zpow_pos (by norm_num) _) low
  have grows := fun {i j : Int} => zpow_lt_zpow_iff_right₀ (by norm_num : (1 : ℚ) < 2) (m := i) (n := j)
  obtain ⟨reached, short⟩ := quotientLogBounds (Int.natAbs_pos.mpr (Rat.num_pos.mpr above).ne') v.den_pos
  rw [ratioOfRat above.le] at reached short
  unfold pointOf
  dsimp only
  generalize quotientLog v.num.natAbs v.den = q at *
  have least := grows.mp (low.trans_lt short)
  have most := grows.mp (reached.trans_lt high)
  obtain ⟨first, last⟩ := guessNear (q := q) (by omega) (by omega)
  generalize q * 30103 / 100000 = g at *
  simp only [List.find?_cons, List.find?_nil, tenToPower]
  by_cases one : v < (10 : ℚ) ^ (g - 1)
  · simp only [one, decide_true, Option.getD_some, and_true]
    rw [show g - 1 - 1 = g - 2 by ring]
    exact first.trans reached
  · by_cases two : v < (10 : ℚ) ^ g
    · simp only [one, two, decide_true, decide_false, Option.getD_some, and_true]
      exact not_lt.mp one
    · by_cases three : v < (10 : ℚ) ^ (g + 1)
      · simp only [one, two, three, decide_true, decide_false, Option.getD_some, and_true, add_sub_cancel_right]
        exact not_lt.mp two
      · simp only [one, two, three, decide_false, Option.getD_none]
        rw [show g + 2 - 1 = g + 1 by ring]
        exact ⟨not_lt.mp three, short.trans_le last⟩

/- What does not lie in an interval lies below it or above. -/
theorem outsideLow {i : Interval} {w : ℚ} (outside : i.holds w = false) (below : w < i.high) : w ≤ i.low := by
  unfold Interval.holds at outside
  split at outside
  · by_contra above
    simp [(not_le.mp above).le, below.le] at outside
  · by_contra above
    simp [not_le.mp above, below] at outside

theorem outsideHigh {i : Interval} {w : ℚ} (outside : i.holds w = false) (above : i.low < w) : i.high ≤ w := by
  unfold Interval.holds at outside
  split at outside
  · by_contra below
    simp [(not_le.mp below).le, above.le] at outside
  · by_contra below
    simp [not_le.mp below, above] at outside

variable {i : Interval} {v : ℚ} {place : Int}

/- The neighbours of a number on a grid. -/
theorem gridNeighbours (above : 0 ≤ v) (place : Int) :
    ((v * tenTo (-place)).floor.toNat : ℚ) * 10 ^ place ≤ v ∧
      v < (((v * tenTo (-place)).floor.toNat + 1 : Nat) : ℚ) * 10 ^ place := by
  have power : (0 : ℚ) < 10 ^ place := zpow_pos (by norm_num) _
  have scaled : v = v * tenTo (-place) * 10 ^ place := by
    rw [tenToPower, mul_assoc, ← zpow_add₀ (by norm_num), neg_add_cancel, zpow_zero, mul_one]
  have positive : 0 ≤ v * tenTo (-place) := by
    rw [tenToPower]
    exact mul_nonneg above (zpow_pos (by norm_num) _).le
  have whole : ((v * tenTo (-place)).floor.toNat : ℚ) = ⌊v * tenTo (-place)⌋ := by
    have cast : ((⌊v * tenTo (-place)⌋.toNat : Int) : ℚ) = ⌊v * tenTo (-place)⌋ := by
      rw [Int.toNat_of_nonneg (Int.floor_nonneg.mpr positive)]
    exact_mod_cast cast
  constructor
  · calc ((v * tenTo (-place)).floor.toNat : ℚ) * 10 ^ place
        ≤ v * tenTo (-place) * 10 ^ place := by
          rw [whole]
          exact mul_le_mul_of_nonneg_right (Int.floor_le _) power.le
      _ = v := scaled.symm
  · calc v = v * tenTo (-place) * 10 ^ place := scaled
      _ < (((v * tenTo (-place)).floor.toNat + 1 : Nat) : ℚ) * 10 ^ place := by
          rw [Nat.cast_add, whole, Nat.cast_one]
          exact mul_lt_mul_of_pos_right (Int.lt_floor_add_one _) power

/- What is taken from a grid is one of the two neighbours, and lies in the interval. -/
theorem gridTaken {c : Nat} (taken : onGrid? i v place = some c) : i.holds (c * 10 ^ place) = true ∧
    (c = (v * tenTo (-place)).floor.toNat ∨ c = (v * tenTo (-place)).floor.toNat + 1) := by
  unfold onGrid? at taken
  dsimp only at taken
  rw [← tenToPower]
  split at taken
  · rename_i below next
    cases taken
    split
    · exact ⟨below, .inl rfl⟩
    · exact ⟨by exact_mod_cast next, .inr rfl⟩
  · rename_i below _
    cases taken
    exact ⟨below, .inl rfl⟩
  · rename_i _ next
    cases taken
    exact ⟨by exact_mod_cast next, .inr rfl⟩
  · cases taken

/- A grid that is narrower than the interval has a neighbour in it. -/
theorem gridFound (above : 0 ≤ v) (low : i.low < v) (high : v < i.high) (narrow : (10 : ℚ) ^ place < i.high - i.low) :
    ∃ c, onGrid? i v place = some c := by
  obtain ⟨below, next⟩ := gridNeighbours above place
  unfold onGrid?
  dsimp only
  rw [← tenToPower] at narrow below next
  split
  · exact ⟨_, rfl⟩
  · exact ⟨_, rfl⟩
  · exact ⟨_, rfl⟩
  · rename_i missed missed'
    exfalso
    have first := outsideLow missed (below.trans_lt high)
    have second := outsideHigh (by exact_mod_cast missed') (low.trans next)
    push_cast at second
    linarith

variable {m : Nat} {e : Int}

/- A number in its interval, and the width of the interval. -/
theorem intervalWide (normal : Normal m e) : (roundingInterval m e).low < m * 2 ^ e ∧
    (m : ℚ) * 2 ^ e < (roundingInterval m e).high ∧
      (m : ℚ) * 2 ^ e * 10 ^ (-16 : Int) < (roundingInterval m e).high - (roundingInterval m e).low := by
  have power : (0 : ℚ) < 2 ^ e := zpow_pos (by norm_num) _
  have most : (m : ℚ) < 2 ^ 53 := by exact_mod_cast normal.most
  have small : (10 : ℚ) ^ (-16 : Int) = 1 / 10 ^ 16 := by norm_num
  rw [intervalHigh, intervalLow, small]
  split
  · rename_i boundary
    have mantissa : (m : ℚ) = 2 ^ 52 := by exact_mod_cast boundary.1
    rw [mantissa]
    refine ⟨?_, ?_, ?_⟩ <;> nlinarith
  · refine ⟨?_, ?_, ?_⟩ <;> nlinarith

/- A number between the powers of two at the two ends of the range. -/
theorem normalBounds (normal : Normal m e) :
    (2 : ℚ) ^ (-1074 : Int) ≤ m * 2 ^ e ∧ (m : ℚ) * 2 ^ e < (2 : ℚ) ^ (1024 : Int) := by
  have power : (0 : ℚ) < 2 ^ e := zpow_pos (by norm_num) _
  have some : (1 : ℚ) ≤ m := by exact_mod_cast normal.some
  have most : (m : ℚ) < 2 ^ (53 : Int) := by exact_mod_cast normal.most
  have least : (2 : ℚ) ^ (-1074 : Int) ≤ 2 ^ e := zpow_le_zpow_right₀ (by norm_num) normal.least
  have greatest : (2 : ℚ) ^ (53 + e) ≤ 2 ^ (1024 : Int) := by
    have bound := normal.greatest
    unfold greatestExponent at bound
    exact zpow_le_zpow_right₀ (by norm_num) (by omega)
  constructor
  · exact least.trans (le_mul_of_one_le_left power.le some)
  · refine lt_of_lt_of_le ?_ greatest
    rw [zpow_add₀ (by norm_num)]
    exact mul_lt_mul_of_pos_right most power

/- Digits of a number: they lie in its interval and between the powers of ten around it, of which the upper one
is the one that the point stands for. -/
structure Digits (m : Nat) (e : Int) (d : Nat × Int) : Prop where
  inside : Between m e (d.1 * 10 ^ d.2)
  low : (10 : ℚ) ^ (pointOf (m * 2 ^ e) - 1) ≤ d.1 * 10 ^ d.2
  high : (d.1 : ℚ) * 10 ^ d.2 ≤ 10 ^ pointOf (m * 2 ^ e)

/- One of the two neighbours of a number that stays between two powers of ten of the grid stays there. -/
theorem neighbourBounds {c : Nat} {k : Int} {n : Nat} (low : (10 : ℚ) ^ (k - 1) ≤ v) (high : v < (10 : ℚ) ^ k)
    (neighbour : c = (v * tenTo (-(k - (n + 1 : Nat)))).floor.toNat ∨
      c = (v * tenTo (-(k - (n + 1 : Nat)))).floor.toNat + 1) :
    (10 : ℚ) ^ (k - 1) ≤ c * 10 ^ (k - (n + 1 : Nat)) ∧ (c : ℚ) * 10 ^ (k - (n + 1 : Nat)) ≤ 10 ^ k := by
  have ten : (10 : ℚ) ≠ 0 := by norm_num
  have power : (0 : ℚ) < 10 ^ (k - (n + 1 : Nat)) := zpow_pos (by norm_num) _
  obtain ⟨below, next⟩ := gridNeighbours ((zpow_pos (by norm_num) _).le.trans low) (k - (n + 1 : Nat))
  generalize (v * tenTo (-(k - (n + 1 : Nat)))).floor.toNat = b at *
  have lower : (10 : ℚ) ^ (k - 1) = (10 ^ n : Nat) * 10 ^ (k - (n + 1 : Nat)) := by
    rw [Nat.cast_pow, Nat.cast_ofNat, ← zpow_natCast, ← zpow_add₀ ten]
    congr 1
    push_cast
    ring
  have upper : (10 : ℚ) ^ k = (10 ^ (n + 1) : Nat) * 10 ^ (k - (n + 1 : Nat)) := by
    rw [Nat.cast_pow, Nat.cast_ofNat, ← zpow_natCast, ← zpow_add₀ ten]
    congr 1
    ring
  have least : 10 ^ n < b + 1 := by
    rw [lower] at low
    exact_mod_cast lt_of_mul_lt_mul_right (low.trans_lt next) power.le
  have most : b < 10 ^ (n + 1) := by
    rw [upper] at high
    exact_mod_cast lt_of_mul_lt_mul_right (below.trans_lt high) power.le
  rw [lower, upper]
  constructor
  · refine mul_le_mul_of_nonneg_right ?_ power.le
    exact_mod_cast (by omega : 10 ^ n ≤ c)
  · refine mul_le_mul_of_nonneg_right ?_ power.le
    exact_mod_cast (by omega : c ≤ 10 ^ (n + 1))

theorem shortestDigits (normal : Normal m e) : Digits m e (shortest m e) := by
  have above : (0 : ℚ) ≤ m * 2 ^ e := by positivity
  obtain ⟨inside, inside', wide⟩ := intervalWide normal
  obtain ⟨low, high⟩ := pointBounds (normalBounds normal).1 (normalBounds normal).2
  unfold shortest
  dsimp only
  rw [twoToPower]
  cases found : ((List.range 17).map fun n => pointOf (m * 2 ^ e) - (n + 1 : Nat)).findSome? fun place =>
      (onGrid? (roundingInterval m e) (m * 2 ^ e) place).map (·, place) with
  | none =>
    -- The last grid is narrower than the interval.
    exfalso
    have narrow : (10 : ℚ) ^ (pointOf (m * 2 ^ e) - (16 + 1 : Nat)) <
        (roundingInterval m e).high - (roundingInterval m e).low := by
      refine lt_of_le_of_lt ?_ wide
      rw [show pointOf (m * 2 ^ e) - (16 + 1 : Nat) = pointOf (m * 2 ^ e) - 1 + (-16) by push_cast; ring,
        zpow_add₀ (by norm_num)]
      exact mul_le_mul_of_nonneg_right low (by norm_num)
    obtain ⟨c, taken⟩ := gridFound above inside inside' narrow
    have last : pointOf (m * 2 ^ e) - (16 + 1 : Nat) ∈ (List.range 17).map fun n => pointOf (m * 2 ^ e) - (n + 1 : Nat) :=
      List.mem_map_of_mem (List.mem_range.mpr (by omega))
    have nowhere := List.findSome?_eq_none_iff.mp found _ last
    rw [taken] at nowhere
    cases nowhere
  | some d =>
    obtain ⟨place, listed, taken⟩ := List.exists_of_findSome?_eq_some found
    obtain ⟨n, -, rfl⟩ := List.mem_map.mp listed
    obtain ⟨c, kept, rfl⟩ := Option.map_eq_some_iff.mp taken
    obtain ⟨holds, neighbour⟩ := gridTaken kept
    obtain ⟨lower, upper⟩ := neighbourBounds low high neighbour
    exact ⟨holdsBetween.mp holds, lower, upper⟩

/- The number nearest to a tenth needs one digit, and so does the limit of sixteen digits. -/
example : shortest 7205759403792794 (-56) = (1, -1) ∧ shortest 5000000000000000 1 = (1, 16) := by decide +kernel

/- Neither too small nor too great to be written with a point alone. -/
def Moderate (v : ℚ) : Prop := 1 / 10000 ≤ v ∧ v < 10 ^ 16

theorem moderateTens (v : ℚ) : Moderate v ↔ (10 : ℚ) ^ (-4 : Int) ≤ v ∧ v < (10 : ℚ) ^ (16 : Int) := by
  have least : (10 : ℚ) ^ (-4 : Int) = 1 / 10000 := by norm_num
  have most : (10 : ℚ) ^ (16 : Int) = 10 ^ 16 := by norm_num
  rw [least, most, Moderate]

/- The digits of a number are as moderate as the number. A number beyond a limit has digits beyond it or on it, and
what is read from the digits of a limit is not beyond the limit. -/
theorem Digits.moderate {d : Nat × Int} (normal : Normal m e) (digits : Digits m e d) :
    Moderate (d.1 * 10 ^ d.2) ↔ Moderate (m * 2 ^ e) := by
  obtain ⟨inside, lower, upper⟩ := digits
  obtain ⟨low, high⟩ := pointBounds (normalBounds normal).1 (normalBounds normal).2
  have grows := fun {i j : Int} => zpow_lt_zpow_iff_right₀ (by norm_num : (1 : ℚ) < 10) (m := i) (n := j)
  have tens {i j : Int} (less : i ≤ j) : (10 : ℚ) ^ i ≤ 10 ^ j := zpow_le_zpow_right₀ (by norm_num) less
  generalize pointOf (m * 2 ^ e) = k at *
  rw [moderateTens, moderateTens]
  constructor
  · rintro ⟨first, last⟩
    refine ⟨?_, ?_⟩
    · by_contra small
      have below := grows.mp (low.trans_lt (not_le.mp small))
      have limit : (d.1 : ℚ) * 10 ^ d.2 = ((1 : Nat) : ℚ) / (10000 : Nat) := by
        have same := le_antisymm (upper.trans (tens (by omega))) first
        rw [same]
        norm_num
      have read : ofRatio false 1 10000 = .finite false 7378697629483821 (-66) := by decide +kernel
      rw [betweenRounds (by norm_num) normal (limit ▸ inside)] at read
      cases read
      norm_num at small
    · by_contra great
      have above := grows.mp ((not_lt.mp great).trans_lt high)
      exact absurd (lower.trans_lt last) ((tens (by omega : 16 ≤ k - 1)).not_gt)
  · rintro ⟨first, last⟩
    refine ⟨?_, ?_⟩
    · have above := grows.mp (first.trans_lt high)
      exact (tens (by omega)).trans lower
    · have below := grows.mp (low.trans_lt last)
      refine lt_of_le_of_ne (upper.trans (tens (by omega))) fun same => ?_
      have limit : (d.1 : ℚ) * 10 ^ d.2 = ((10 ^ 16 : Nat) : ℚ) / (1 : Nat) := by
        rw [same]
        norm_num
      have read : ofRatio false (10 ^ 16) 1 = .finite false 5000000000000000 1 := by decide +kernel
      rw [betweenRounds (by norm_num) normal (limit ▸ inside)] at read
      cases read
      norm_num at last

end Stencil.Decimal
