/-! Cutting and searching texts, as lists of characters. -/
namespace Stencil.Text

/- The pieces between the occurrences of `sep`: one piece more than there are occurrences. -/
def pieces (sep : Char) : List Char → List (List Char)
  | [] => [[]]
  | c :: rest =>
    if c = sep then [] :: pieces sep rest
    else match pieces sep rest with
      | [] => [[c]]
      | p :: ps => (c :: p) :: ps

def cut (sep : Char) (s : List Char) : List Char × Option (List Char) :=
  match s.dropWhile (· != sep) with
  | [] => (s, none)
  | _ :: rest => (s.takeWhile (· != sep), some rest)

def indexOf? (needle : List Char) : List Char → Option Nat
  | [] => if needle.isEmpty then some 0 else none
  | c :: rest =>
    if needle.isPrefixOf (c :: rest) then some 0 else (indexOf? needle rest).map (· + 1)

theorem pieces_ne_nil (sep : Char) (s : List Char) : pieces sep s ≠ [] := by
  cases s with
  | nil => simp [pieces]
  | cons c rest =>
    simp only [pieces]
    split
    · simp
    · split <;> simp

theorem pieces_cons_self (sep : Char) (s : List Char) : pieces sep (sep :: s) = [] :: pieces sep s := by
  simp [pieces]

variable {sep : Char} {s t : List Char} {ps : List (List Char)}

theorem pieces_eq_splitOn (sep : Char) (s : List Char) : pieces sep s = s.splitOn sep := by
  induction s with
  | nil => rfl
  | cons c s ih =>
    rw [List.splitOn_cons_eq_if_modifyHead, ← ih, pieces]
    by_cases same : c = sep
    · simp [same]
    · obtain ⟨p, ps, cut⟩ := List.exists_cons_of_ne_nil (pieces_ne_nil sep s)
      simp [same, cut]

theorem pieces_append (sep : Char) (s t : List Char) :
    pieces sep (s ++ sep :: t) = pieces sep s ++ pieces sep t := by
  simp only [pieces_eq_splitOn, List.splitOn_append_cons_self]

theorem intercalate_pieces (sep : Char) (s : List Char) : List.intercalate [sep] (pieces sep s) = s := by
  rw [pieces_eq_splitOn, List.intercalate_splitOn]

theorem pieces_inj : pieces sep s = pieces sep t ↔ s = t := by
  refine ⟨fun h => ?_, congrArg (pieces sep)⟩
  rw [← intercalate_pieces sep s, h, intercalate_pieces]

/- No separator stands in a piece. -/
theorem not_mem_of_mem_pieces : ∀ p ∈ pieces sep s, sep ∉ p := by
  induction s with
  | nil => simp [pieces]
  | cons c s ih =>
    obtain ⟨p, ps, cut⟩ := List.exists_cons_of_ne_nil (pieces_ne_nil sep s)
    rw [cut, List.forall_mem_cons] at ih
    by_cases same : c = sep
    · simpa [pieces, same, cut] using ih
    · simpa [pieces, same, cut, Ne.symm same] using ih

theorem pieces_intercalate (h : ps ≠ []) (apart : ∀ p ∈ ps, sep ∉ p) :
    pieces sep (List.intercalate [sep] ps) = ps := by
  rw [pieces_eq_splitOn, List.splitOn_intercalate sep apart h]

theorem pieces_of_not_mem (h : sep ∉ s) : pieces sep s = [s] := by
  have apart : ∀ p ∈ [s], sep ∉ p := by simpa using h
  rw [← pieces_intercalate (List.cons_ne_nil s []) apart, List.intercalate_singleton]

end Stencil.Text
