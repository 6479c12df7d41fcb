/-! Counting: how often each element occurs. -/
namespace Stencil

variable {α : Type} [DecidableEq α]

def bump (x : α) : List (α × Nat) → List (α × Nat)
  | [] => [(x, 1)]
  | (y, n) :: rest => if y = x then (y, n + 1) :: rest else (y, n) :: bump x rest

def tally (xs : List α) : List (α × Nat) := xs.foldl (fun counts x => bump x counts) []

/- The rows of a table, those with larger counts first. -/
def byCount (rows : List (α × Nat)) : List (α × Nat) := rows.mergeSort (fun p q => q.2 ≤ p.2)

/- How much is counted in all rows together. -/
def totalOf : List (α × Nat) → Nat
  | [] => 0
  | (_, n) :: rest => n + totalOf rest

def countOf (x : α) (counts : List (α × Nat)) : Nat := (counts.lookup x).getD 0

theorem countOf_bump_self (x : α) (counts : List (α × Nat)) :
    countOf x (bump x counts) = countOf x counts + 1 := by
  induction counts with
  | nil => simp [bump, countOf]
  | cons p rest ih =>
    obtain ⟨y, n⟩ := p
    by_cases h : y = x
    · simp [bump, countOf, h]
    · have h' : (x == y) = false := by simp [Ne.symm h]
      simpa [bump, countOf, h, List.lookup_cons, h'] using ih

theorem countOf_bump_of_ne {x y : α} (h : x ≠ y) (counts : List (α × Nat)) :
    countOf y (bump x counts) = countOf y counts := by
  induction counts with
  | nil =>
    have h' : (y == x) = false := by simp [Ne.symm h]
    simp [bump, countOf, List.lookup_cons, h']
  | cons p rest ih =>
    obtain ⟨z, n⟩ := p
    by_cases hz : z = x
    · subst hz
      have h' : (y == z) = false := by simp [Ne.symm h]
      simp [bump, countOf, List.lookup_cons, h']
    · by_cases hy : y = z
      · subst hy
        simp [bump, hz, countOf]
      · have h' : (y == z) = false := by simp [hy]
        simpa [bump, countOf, hz, List.lookup_cons, h'] using ih

theorem countOf_foldl (x : α) (xs : List α) (counts : List (α × Nat)) :
    countOf x (xs.foldl (fun counts y => bump y counts) counts) = countOf x counts + xs.count x := by
  induction xs generalizing counts with
  | nil => rfl
  | cons y xs ih =>
    rw [List.foldl_cons, ih, List.count_cons]
    by_cases h : y = x
    · subst h
      rw [countOf_bump_self]
      simp; omega
    · simp [countOf_bump_of_ne h, h]

theorem countOf_tally (x : α) (xs : List α) : countOf x (tally xs) = xs.count x := by
  rw [tally, countOf_foldl]
  exact Nat.zero_add _

theorem totalOf_bump (x : α) (counts : List (α × Nat)) : totalOf (bump x counts) = totalOf counts + 1 := by
  induction counts with
  | nil => rfl
  | cons p rest ih =>
    rw [bump]
    split
    · simp only [totalOf]; omega
    · simp only [totalOf, ih]; omega

theorem totalOf_tally (xs : List α) : totalOf (tally xs) = xs.length := by
  have grown (counts : List (α × Nat)) :
      totalOf (xs.foldl (fun counts y => bump y counts) counts) = totalOf counts + xs.length := by
    induction xs generalizing counts with
    | nil => rfl
    | cons y xs ih =>
      rw [List.foldl_cons, ih, totalOf_bump, List.length_cons]
      omega
  exact (grown []).trans (Nat.zero_add _)

end Stencil
