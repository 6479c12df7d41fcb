/-! Sets of code points kept as sorted boundaries. -/
namespace Stencil.Text

/- Membership in the set that begins to hold at the first boundary, ceases to hold at the second,
holds again from the third, and so on. -/
def within : List Nat → Nat → Bool
  | [], _ => false
  | b :: rest, n => if n < b then false else !within rest n

/- The last boundary that is not above `n`: where the run that holds `n` begins. -/
def runStart : List Nat → Nat → Nat
  | [], _ => 0
  | b :: rest, n => if n < b then 0 else max b (runStart rest n)

theorem within_of_lt {b n : Nat} {rest : List Nat} (h : n < b) : within (b :: rest) n = false := by
  simp [within, h]

theorem within_of_le {b n : Nat} {rest : List Nat} (h : b ≤ n) :
    within (b :: rest) n = !within rest n := by
  simp [within, Nat.not_lt.mpr h]

end Stencil.Text
