import Stencil.Number.Shortest
import Stencil.Proofs.Rounding

/-! The interval of a number. Every fraction within it is rounded to the number, the fractions at its two ends
included where the mantissa is even. -/
namespace Stencil

namespace Binary64

/- A number above zero as rounding gives it: with all digits of the mantissa, or with fewer at the least
exponent. -/
structure Normal (m : Nat) (e : Int) : Prop where
  some : 0 < m
  most : m < 2 ^ 53
  least : leastExponent ≤ e
  greatest : e ≤ greatestExponent
  full : 2 ^ 52 ≤ m ∨ e = leastExponent

/- What rounding can give: zero at the least exponent only, and otherwise such a number if it is finite. -/
inductive Rounded : Binary64 → Prop where
  | nan {payload} : Rounded (.nan payload)
  | infinite {negative} : Rounded (.infinite negative)
  | zero {negative} : Rounded (.finite negative 0 leastExponent)
  | number {negative m e} (normal : Normal m e) : Rounded (.finite negative m e)

theorem ofRatioRounded {n d : Nat} (positive : 0 < d) (negative : Bool) : (ofRatio negative n d).Rounded := by
  rcases Nat.eq_zero_or_pos n with rfl | some
  · exact .zero
  · have bound : leastExponent ≤ exponentOf n d := le_max_right _ _
    have most := mantissaMost some positive
    rw [ofRatioEnds some]
    split
    · split
      · exact .infinite
      · rename_i within
        exact .number ⟨by norm_num, by norm_num, by omega, Int.not_lt.mp within, .inl le_rfl⟩
    · rename_i short
      split
      · exact .infinite
      · rename_i within
        rcases bound.lt_or_eq with above | same
        · have full := mantissaLeast some positive above
          exact .number ⟨by omega, by omega, bound, Int.not_lt.mp within, .inl full⟩
        · rcases Nat.eq_zero_or_pos (mantissaOf n d) with nothing | something
          · rw [nothing, ← same]
            exact .zero
          · exact .number ⟨something, by omega, bound, Int.not_lt.mp within, .inr same.symm⟩

/- A fraction is rounded to a whole number that is not further away than half. -/
theorem roundDivNear {a b m : Nat} (positive : 0 < b) (low : 2 * m * b ≤ 2 * a + b) (high : 2 * a ≤ 2 * m * b + b)
    (odd : m % 2 = 1 → 2 * m * b ≠ 2 * a + b ∧ 2 * a ≠ 2 * m * b + b) : roundDiv a b = m := by
  have parts := Nat.div_add_mod a b
  have short := Nat.mod_lt a positive
  unfold roundDiv
  dsimp only
  generalize a / b = q at *
  generalize a % b = r at *
  obtain below | same | above := Nat.lt_trichotomy q m
  · -- Only the next whole number is near enough.
    have next : m = q + 1 := by nlinarith
    subst next
    have half : b ≤ 2 * r := by nlinarith
    rw [if_neg]
    simp only [Bool.or_eq_true, Bool.and_eq_true, decide_eq_true_eq, beq_iff_eq, not_or, not_and]
    refine ⟨by omega, fun tie even => ?_⟩
    exact (odd (by omega)).1 (by nlinarith)
  · subst same
    have half : 2 * r ≤ b := by nlinarith
    rw [if_pos]
    simp only [Bool.or_eq_true, Bool.and_eq_true, decide_eq_true_eq, beq_iff_eq]
    rcases Nat.lt_or_eq_of_le half with less | tie
    · exact .inl less
    · refine .inr ⟨tie, ?_⟩
      rcases Nat.mod_two_eq_zero_or_one q with even | strict
      · exact even
      · exact absurd (by nlinarith) (odd strict).2
  · exfalso
    nlinarith

variable {n d : Nat}

/- The exponent of a fraction follows from the two powers between which it lies. -/
theorem exponentBetween {e : Int} (some : 0 < n) (positive : 0 < d) (least : leastExponent ≤ e)
    (low : (2 : ℚ) ^ (52 + e) ≤ (n : ℚ) / d ∨ e = leastExponent) (high : (n : ℚ) / d < (2 : ℚ) ^ (53 + e)) :
    exponentOf n d = e := by
  obtain ⟨above, below⟩ := quotientLogBounds some positive
  have grows := fun {i j : Int} => zpow_lt_zpow_iff_right₀ (by norm_num : (1 : ℚ) < 2) (m := i) (n := j)
  have most := grows.mp (above.trans_lt high)
  unfold exponentOf
  rcases low with reached | same
  · have reaches := grows.mp (reached.trans_lt below)
    omega
  · omega

/- The mantissa of a fraction that lies no further than half a step from one. -/
theorem mantissaNear {m : Nat} (positive : 0 < d)
    (low : ((m : ℚ) - 1 / 2) * 2 ^ exponentOf n d ≤ (n : ℚ) / d)
    (high : (n : ℚ) / d ≤ ((m : ℚ) + 1 / 2) * 2 ^ exponentOf n d)
    (odd : m % 2 = 1 → ((m : ℚ) - 1 / 2) * 2 ^ exponentOf n d ≠ (n : ℚ) / d ∧
      (n : ℚ) / d ≠ ((m : ℚ) + 1 / 2) * 2 ^ exponentOf n d) : mantissaOf n d = m := by
  have power : (0 : ℚ) < 2 ^ exponentOf n d := zpow_pos (by norm_num) _
  obtain ⟨solid, ratio⟩ := @scaledRatio n d positive (exponentOf n d)
  have size : (0 : ℚ) < (scaleDown n d (exponentOf n d)).2 := by exact_mod_cast solid
  -- The fraction in steps of its exponent.
  have steps : (n : ℚ) / d = ((scaleDown n d (exponentOf n d)).1 : ℚ) / (scaleDown n d (exponentOf n d)).2 *
      2 ^ exponentOf n d := by rw [ratio, div_mul_cancel₀ _ power.ne']
  rw [steps] at low high odd
  unfold mantissaOf
  generalize (scaleDown n d (exponentOf n d)).1 = a at *
  generalize (scaleDown n d (exponentOf n d)).2 = b at *
  have low' := le_of_mul_le_mul_right low power
  have high' := le_of_mul_le_mul_right high power
  rw [le_div_iff₀ size] at low'
  rw [div_le_iff₀ size] at high'
  refine roundDivNear solid ?_ ?_ fun strict => ⟨?_, ?_⟩
  · have cast : (2 * m * b : ℚ) ≤ 2 * a + b := by linarith
    exact_mod_cast cast
  · have cast : (2 * a : ℚ) ≤ 2 * m * b + b := by linarith
    exact_mod_cast cast
  · intro same
    have cast : (2 * m * b : ℚ) = 2 * a + b := by exact_mod_cast same
    exact (odd strict).1 (by rw [eq_div_of_mul_eq size.ne' (by linarith : ((m : ℚ) - 1 / 2) * b = a)])
  · intro same
    have cast : (2 * a : ℚ) = 2 * m * b + b := by exact_mod_cast same
    exact (odd strict).2 (by rw [← eq_div_of_mul_eq size.ne' (by linarith : ((m : ℚ) + 1 / 2) * b = a)])

end Binary64

namespace Decimal

open Binary64

/- A power with a whole exponent, up or down. -/
theorem wholePower (base : Nat) (i : Int) :
    (if 0 ≤ i then (Nat.pow base i.toNat : ℚ) else mkRat 1 (Nat.pow base (-i).toNat)) = (base : ℚ) ^ i := by
  split
  · rename_i up
    obtain ⟨k, rfl⟩ := Int.eq_ofNat_of_zero_le up
    simp
  · rename_i down
    obtain ⟨k, same⟩ := Int.eq_ofNat_of_zero_le (Int.neg_nonneg_of_nonpos (Int.le_of_not_le down))
    obtain rfl : i = -(k : Int) := by omega
    simp [Rat.mkRat_eq_div]

theorem twoToPower (i : Int) : twoTo i = (2 : ℚ) ^ i := wholePower 2 i

theorem tenToPower (i : Int) : tenTo i = (10 : ℚ) ^ i := wholePower 10 i

variable {m : Nat} {e : Int} {v : ℚ}

/- What lies in an interval lies between its ends, and on none of them where the mantissa is odd. -/
structure Between (m : Nat) (e : Int) (v : ℚ) : Prop where
  low : (roundingInterval m e).low ≤ v
  high : v ≤ (roundingInterval m e).high
  odd : m % 2 = 1 → (roundingInterval m e).low ≠ v ∧ v ≠ (roundingInterval m e).high

theorem holdsBetween : (roundingInterval m e).holds v = true ↔ Between m e v := by
  unfold Interval.holds
  rcases Nat.mod_two_eq_zero_or_one m with even | odd
  · have closed : (roundingInterval m e).closed = true := by simp [roundingInterval, even]
    rw [if_pos closed, Bool.and_eq_true, decide_eq_true_eq, decide_eq_true_eq]
    exact ⟨fun inside => ⟨inside.1, inside.2, by omega⟩, fun between => ⟨between.low, between.high⟩⟩
  · have open' : ¬ (roundingInterval m e).closed = true := by simp [roundingInterval, odd]
    rw [if_neg open', Bool.and_eq_true, decide_eq_true_eq, decide_eq_true_eq]
    constructor
    · exact fun inside => ⟨inside.1.le, inside.2.le, fun _ => ⟨inside.1.ne, inside.2.ne⟩⟩
    · intro between
      have apart := between.odd odd
      exact ⟨lt_of_le_of_ne between.low apart.1, lt_of_le_of_ne between.high apart.2⟩

theorem intervalHigh (m : Nat) (e : Int) : (roundingInterval m e).high = ((m : ℚ) + 1 / 2) * 2 ^ e := by
  have base : (2 : ℚ) ≠ 0 := by norm_num
  simp only [roundingInterval, twoToPower, zpow_sub_one₀ base]
  ring

/- Below a power of two the step is half as wide, but not at the least exponent. -/
theorem intervalLow (m : Nat) (e : Int) : (roundingInterval m e).low =
    if m = 2 ^ 52 ∧ leastExponent < e then ((m : ℚ) - 1 / 4) * 2 ^ e else ((m : ℚ) - 1 / 2) * 2 ^ e := by
  have base : (2 : ℚ) ≠ 0 := by norm_num
  simp only [roundingInterval, twoToPower, Nat.pow_eq, Bool.and_eq_true, decide_eq_true_eq]
  split
  · rw [zpow_sub₀ base]
    norm_num
    ring
  · rw [zpow_sub_one₀ base]
    ring

/- What lies in the interval of a number is rounded to it. -/
theorem betweenRounds {n d : Nat} (positive : 0 < d) (normal : Normal m e) (between : Between m e ((n : ℚ) / d))
    (negative : Bool) : ofRatio negative n d = .finite negative m e := by
  have base : (2 : ℚ) ≠ 0 := by norm_num
  have power : (0 : ℚ) < 2 ^ e := zpow_pos (by norm_num) _
  have mantissa : (1 : ℚ) ≤ m := by exact_mod_cast normal.some
  have most : (m : ℚ) ≤ 2 ^ 53 - 1 := by
    have fits : m + 1 ≤ 2 ^ 53 := normal.most
    have cast : (m : ℚ) + 1 ≤ 2 ^ 53 := by exact_mod_cast fits
    linarith
  obtain ⟨low, high, odd⟩ := between
  rw [intervalLow] at low odd
  rw [intervalHigh] at high odd
  have some : 0 < n := by
    have above : (0 : ℚ) < (n : ℚ) / d := by
      refine lt_of_lt_of_le ?_ low
      split <;> exact mul_pos (by linarith) power
    rcases Nat.eq_zero_or_pos n with rfl | some
    · simp at above
    · exact some
  have upper : (2 : ℚ) ^ (53 + e) = 2 ^ 53 * 2 ^ e := by
    rw [zpow_add₀ base]
    norm_num
  have lower : (2 : ℚ) ^ (52 + e) = 2 ^ 52 * 2 ^ e := by
    rw [zpow_add₀ base]
    norm_num
  have below : (n : ℚ) / d < 2 ^ (53 + e) := by
    rw [upper]
    exact high.trans_lt (mul_lt_mul_of_pos_right (by linarith) power)
  rw [ofRatioEnds some]
  by_cases reaches : (2 : ℚ) ^ (52 + e) ≤ (n : ℚ) / d ∨ e = leastExponent
  · -- The fraction has the exponent of the number.
    have exponent := exponentBetween some positive normal.least reaches below
    have mantissa : mantissaOf n d = m := by
      by_cases boundary : m = 2 ^ 52 ∧ leastExponent < e
      · have even : m % 2 = 0 := by rw [boundary.1]; norm_num
        have reached := reaches.resolve_right boundary.2.ne'
        refine mantissaNear positive ?_ (by rwa [exponent]) (by omega)
        rw [exponent]
        rw [lower] at reached
        refine le_trans (mul_le_mul_of_nonneg_right ?_ power.le) reached
        rw [boundary.1]
        norm_num
      · rw [if_neg boundary] at low odd
        exact mantissaNear positive (by rwa [exponent]) (by rwa [exponent]) (by rwa [exponent])
    have whole : ¬ m = 2 ^ 53 := Nat.ne_of_lt normal.most
    rw [mantissa, exponent, if_neg whole, if_neg (Int.not_lt.mpr normal.greatest)]
  · -- The fraction lies just below a power of two, and is rounded up to it.
    obtain ⟨short, above⟩ := not_or.mp reaches
    rw [not_le] at short
    have least : leastExponent < e := lt_of_le_of_ne normal.least (Ne.symm above)
    have full := normal.full.resolve_right above
    have boundary : m = 2 ^ 52 := by
      by_contra other
      rw [if_neg (fun both => other both.1)] at low
      have next : 2 ^ 52 + 1 ≤ m := by omega
      have next' : (2 : ℚ) ^ 52 + 1 ≤ m := by exact_mod_cast next
      have beyond : (2 : ℚ) ^ (52 + e) < (n : ℚ) / d := by
        rw [lower]
        exact lt_of_lt_of_le (mul_lt_mul_of_pos_right (by linarith) power) low
      exact absurd short beyond.not_gt
    rw [if_pos ⟨boundary, least⟩, boundary] at low
    have half : (2 : ℚ) ^ e = 2 * 2 ^ (e - 1) := by
      rw [zpow_sub_one₀ base]
      ring
    have power' : (0 : ℚ) < 2 ^ (e - 1) := zpow_pos (by norm_num) _
    have exponent : exponentOf n d = e - 1 := by
      refine exponentBetween some positive (by omega) (.inl ?_) (by rwa [show 53 + (e - 1) = 52 + e by ring])
      refine le_trans ?_ low
      rw [zpow_add₀ base, half]
      norm_num
      nlinarith
    have mantissa : mantissaOf n d = 2 ^ 53 := by
      refine mantissaNear positive ?_ ?_ (by norm_num)
      · rw [exponent]
        refine le_trans (le_of_eq ?_) low
        rw [half]
        norm_num
        ring
      · rw [exponent]
        refine short.le.trans ?_
        rw [zpow_add₀ base, half]
        norm_num
        nlinarith
    have within : ¬ greatestExponent < e := Int.not_lt.mpr normal.greatest
    rw [mantissa, exponent, if_pos rfl, Int.sub_add_cancel, if_neg within, boundary]

end Decimal
end Stencil
