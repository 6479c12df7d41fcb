import Mathlib
import Stencil.Proofs.Escapes
import Stencil.Proofs.Settled
import Stencil.Proofs.Spelling
import Stencil.Proofs.Translation

/-! Paths that lead somewhere, or nowhere, in any tree of values. All that can go wrong on the way is a part that is
taken for an index and cannot be read as a number: one with digits other than the decimal ones, or with too many
of them. -/
namespace Stencil

namespace Expr

open Text

/- A minus sign is no part of a name. -/
theorem namedUnsigned {path : String} (named : Named path) : '-' ∉ path.toList := by
  have never : isNameStart '-' = false ∧ isNameRest '-' = false := by decide +kernel
  obtain ⟨c, s, n, found⟩ := named
  cases lexemeBegins found with
  | mark _ other => exact absurd rfl (other path)
  | name start =>
    rw [String.toList_ofList]
    intro member
    rcases List.mem_cons.mp member with rfl | later
    · simp [never.1] at start
    · rcases nameChars s _ later with part | dot
      · simp [never.2] at part
      · exact absurd dot (by decide)

end Expr

namespace Path

open Text

def Ascii (path : String) : Prop := ∀ c ∈ path.toList, c.toNat < 128

/- An ASCII path in which no part that is taken for an index has too many digits. -/
structure Plain (path : String) : Prop where
  ascii : Ascii path
  short : ∀ segment ∈ segments path, looksLikeIndex segment = true → segment.toList.length ≤ ValueFault.maxDigits

/- A path whose indexes are numbers. -/
def Numbered (path : String) : Prop :=
  ∀ segment ∈ segments path, looksLikeIndex segment = true → ∃ n, readInteger segment = .ok n

theorem piecesKept {sep : Char} {s p : List Char} (member : p ∈ pieces sep s) : p ⊆ s := by
  induction s generalizing p with
  | nil =>
    rw [pieces, List.mem_singleton] at member
    rw [member]
    exact List.nil_subset _
  | cons c s ih =>
    rw [pieces] at member
    split at member
    · rcases List.mem_cons.mp member with rfl | later
      · exact List.nil_subset _
      · exact List.subset_cons_of_subset c (ih later)
    · obtain ⟨q, qs, cut⟩ := List.exists_cons_of_ne_nil (pieces_ne_nil sep s)
      rw [cut] at member ih
      rcases List.mem_cons.mp member with rfl | later
      · exact List.cons_subset_cons c (ih List.mem_cons_self)
      · exact List.subset_cons_of_subset c (ih (List.mem_cons_of_mem _ later))

theorem segmentKept {path segment : String} (member : segment ∈ segments path) : segment.toList ⊆ path.toList := by
  obtain ⟨p, inside, rfl⟩ := List.mem_map.mp member
  rw [String.toList_ofList]
  exact piecesKept (List.mem_of_mem_filter inside)

/- Among the ASCII characters the digits are the decimal ones. -/
theorem asciiDigit {c : Char} (ascii : c.toNat < 128) (digit : isDigit c = true) : c.isDigit = true := by
  have decimal : isDigit c = true → c.isDigit = true := asciiForall c ascii (by decide +kernel)
  exact decimal digit

theorem plainNumbered {path : String} (plain : Plain path) (unsigned : '-' ∉ path.toList) : Numbered path := by
  intro segment member index
  have kept := segmentKept member
  have nothing : segment.toList.dropWhile (· == '-') = segment.toList := by
    cases chars : segment.toList with
    | nil => rfl
    | cons c rest =>
      have other : c ≠ '-' := by
        rintro rfl
        exact unsigned (kept (by simp [chars]))
      simp [other]
  have short := plain.short segment member index
  simp only [looksLikeIndex, nothing, Bool.and_eq_true, Bool.not_eq_true', List.isEmpty_eq_false_iff,
    List.all_eq_true] at index
  have digits : ∀ c ∈ segment.toList, Expr.Numeral c := fun c inside =>
    Expr.digitNumeral (asciiDigit (plain.ascii c (kept inside)) (index.2 c inside))
  have spelled : segment.toList = if false = true then '-' :: segment.toList else segment.toList := rfl
  have read := @Expr.digitsRead ValueFault.maxDigits _ _ _ spelled digits index.1
  exact ⟨_, by rw [readInteger, read, if_neg (Nat.not_lt.mpr short)]⟩

theorem stepNumbered {segment : String} (numbered : looksLikeIndex segment = true → ∃ n, readInteger segment = .ok n)
    (v : Value) : ∃ w, step v segment = .ok w := by
  cases v with
  | list items | tuple items =>
    rw [step]
    split
    · rename_i index
      obtain ⟨n, read⟩ := numbered index
      exact ⟨_, by rw [read]; rfl⟩
    · exact ⟨_, rfl⟩
  | map | null | missing | str | bool | int | float | date | moment | time | set | callable => exact ⟨_, rfl⟩

theorem walkNumbered {parts : List String}
    (numbered : ∀ segment ∈ parts, looksLikeIndex segment = true → ∃ n, readInteger segment = .ok n) (v : Value) :
    ∃ w, walk v parts = .ok w := by
  induction parts generalizing v with
  | nil => exact ⟨v, rfl⟩
  | cons segment parts ih =>
    obtain ⟨first, others⟩ := List.forall_mem_cons.mp numbered
    obtain ⟨next, stepped⟩ := stepNumbered first v
    obtain ⟨w, walked⟩ := ih others next
    exact ⟨w, by rw [walk, stepped]; exact walked⟩

theorem resolveNumbered {path : String} (numbered : Numbered path) (tree : Value) :
    ∃ v, resolve tree path = .ok v := by
  rw [resolve]
  cases parts : segments path with
  | nil => exact ⟨_, rfl⟩
  | cons segment rest =>
    rw [Numbered, parts] at numbered
    exact walkNumbered numbered tree

end Path

/- A lookup of such a path gives a value, as long as defaults and handlers are mappings. -/
theorem outerNumbered {options : RenderOptions} (mapped : options.Mapped) {path : String}
    (numbered : Path.Numbered path) (host : Host) (vars : Value) : ∃ v, outerValue host vars options path = .ok v := by
  obtain ⟨entries, defaults⟩ := mapped.defaults
  obtain ⟨more, handlers⟩ := mapped.handlers
  obtain ⟨v, found⟩ := Path.resolveNumbered numbered vars
  obtain ⟨w, instead⟩ := Path.resolveNumbered numbered options.defaults
  have raw : ∃ u, rawValue vars options.defaults path = .ok u := by
    simp only [rawValue, found, bind, Except.bind]
    split
    · rw [defaults] at instead ⊢
      simp only [Path.holds]
      split
      · exact ⟨_, rfl⟩
      · exact ⟨w, instead⟩
    · exact ⟨v, rfl⟩
  obtain ⟨u, raw⟩ := raw
  simp only [outerValue, raw, handlers, Path.holds, bind, Except.bind]
  split
  · exact ⟨_, rfl⟩
  · split
    · exact ⟨_, rfl⟩
    · exact ⟨_, rfl⟩

end Stencil
