import Stencil.Proofs.Enclosing

/-! Texts cut at separators. A separator between quotes or in parentheses cuts nothing, so that pieces in which no
other stands, put together with separators, are found again. -/
namespace Stencil

open Stencil.Expr Text

namespace Text

/- The text is no two pieces, and what follows it is marked as it is alone. -/
structure Kept (sep : Char) (s : List Char) : Prop where
  leads : Leads 0 s 0
  whole : splitMarked sep (marked s) = [s]

/- No separator stands in it outside of quotes and parentheses. -/
structure Sealed (sep : Char) (s : List Char) : Prop where
  leads : Leads 0 s 0
  none : (sep, true) ∉ marked s

variable {sep : Char} {s t : List Char}

theorem splitSealed {m : List (Char × Bool)} (none : (sep, true) ∉ m) : splitMarked sep m = [m.map (·.1)] := by
  induction m with
  | nil => rfl
  | cons x m ih =>
    obtain ⟨c, top⟩ := x
    simp only [List.mem_cons, not_or, Prod.mk.injEq, not_and] at none
    have kept : (top && c = sep) = false := by
      rw [Bool.eq_false_iff]
      intro cuts
      simp only [Bool.and_eq_true, decide_eq_true_eq] at cuts
      exact none.1 cuts.2.symm cuts.1.symm
    exact Plain.splitKept kept (ih none.2)

theorem Sealed.kept (closed : Sealed sep s) : Kept sep s where
  leads := closed.leads
  whole := by
    rw [splitSealed closed.none, marked, List.map_fst_zip (by rw [length_outside])]

theorem Sealed.append (first : Sealed sep s) (second : Sealed sep t) : Sealed sep (s ++ t) where
  leads := first.leads.append second.leads
  none := by
    rw [marked, first.leads.marks, List.mem_append, not_or]
    exact ⟨first.none, second.none⟩

theorem Sealed.ofFlat (flat : ∀ c ∈ s, Flat c ∧ c ≠ sep) : Sealed sep s where
  leads := .ofFlat fun c member => (flat c member).1
  none := fun member => (flat sep (List.of_mem_zip member).1).2 rfl

theorem Sealed.single {c : Char} (flat : Flat c ∧ c ≠ sep) : Sealed sep [c] := .ofFlat (by simpa using flat)

theorem lengthenWritten (cs : List Char) (ps : List (List Char)) : lengthen cs ps ≠ [] := by
  cases ps <;> simp [lengthen]

theorem splitWritten (m : List (Char × Bool)) : splitMarked sep m ≠ [] := by
  fun_cases splitMarked sep m with
  | case1 | case3 => exact List.cons_ne_nil _ _
  | case2 | case4 => exact lengthenWritten _ _

theorem lengthenAlone {cs : List Char} {ps : List (List Char)} (written : ps ≠ []) (alone : lengthen cs ps = [s]) :
    ∃ t, ps = [t] ∧ s = cs ++ t := by
  obtain ⟨t, ps, rfl⟩ := List.exists_cons_of_ne_nil written
  obtain ⟨rfl, rfl⟩ := List.cons.inj alone
  exact ⟨t, rfl, rfl⟩

/- A separator ends the piece in front of it, if no other follows it. -/
theorem splitBehind {m rest : List (Char × Bool)} (whole : splitMarked sep m = [s])
    (other : ∀ x ∈ rest.head?, x.1 ≠ sep) : splitMarked sep (m ++ (sep, true) :: rest) = s :: splitMarked sep rest := by
  fun_induction splitMarked sep m generalizing s with
  | case1 =>
    obtain rfl : [] = s := List.cons.inj whole |>.1
    rw [List.nil_append, splitMarked.eq_def]
    simp only [Bool.true_and, decide_true, if_true]
    split
    · exact absurd rfl (other _ rfl)
    · rfl
  | case2 c top cuts mark m same ih =>
    subst same
    obtain ⟨t, alone, rfl⟩ := lengthenAlone (splitWritten m) whole
    rw [List.cons_append, List.cons_append, splitMarked.eq_def]
    simp only [cuts, if_true, ih alone]
    rfl
  | case3 c top cuts m single ih => exact absurd (List.cons.inj whole).2 (splitWritten m)
  | case4 c top m kept ih =>
    obtain ⟨t, alone, rfl⟩ := lengthenAlone (splitWritten m) whole
    rw [List.cons_append, Plain.splitPassed (by simpa using kept), ih alone]
    rfl

theorem intercalateBegins {sep p : String} {c : Char} (first : p.toList.head? = some c) (ps : List String) :
    (String.intercalate sep (p :: ps)).toList.head? = some c := by
  cases ps with
  | nil => simpa using first
  | cons q ps => simp [String.intercalate_cons_cons, List.head?_append, first]

theorem intercalateEnds {P : Char → Prop} (sep : String) {ps : List String} (written : ps ≠ [])
    (ends : ∀ p ∈ ps, ∃ c, p.toList.getLast? = some c ∧ P c) :
    ∃ c, (String.intercalate sep ps).toList.getLast? = some c ∧ P c := by
  induction ps with
  | nil => exact absurd rfl written
  | cons p ps ih =>
    obtain ⟨here, others⟩ := List.forall_mem_cons.mp ends
    cases ps with
    | nil => simpa using here
    | cons q ps =>
      obtain ⟨c, last, holds⟩ := ih (List.cons_ne_nil q ps) others
      refine ⟨c, ?_, holds⟩
      rw [String.intercalate_cons_cons, String.toList_append, List.getLast?_append, last]
      rfl

theorem Sealed.intercalated {comma : String} (between : Sealed sep comma.toList) {ps : List String}
    (closed : ∀ p ∈ ps, Sealed sep p.toList) : Sealed sep (String.intercalate comma ps).toList := by
  induction ps with
  | nil => exact .ofFlat (by simp)
  | cons p ps ih =>
    obtain ⟨here, others⟩ := List.forall_mem_cons.mp closed
    cases ps with
    | nil => simpa using here
    | cons q ps => simpa [String.intercalate_cons_cons] using here.append (between.append (ih others))

theorem markedBegins {c : Char} (first : s.head? = some c) : ∀ x ∈ (marked s).head?, x.1 = c := by
  intro x head
  have fronts : (marked s).map (·.1) = s := List.map_fst_zip (by rw [length_outside])
  have same := congrArg List.head? fronts
  rw [List.head?_map, head, first] at same
  exact Option.some.inj same

theorem splitJoined (kept : Kept sep s) (flat : Flat sep) (other : ∀ c ∈ t.head?, c ≠ sep) :
    splitMarked sep (marked (s ++ sep :: t)) = s :: splitMarked sep (marked t) := by
  have head : ∀ x ∈ (marked t).head?, x.1 ≠ sep := by
    intro x first
    cases t with
    | nil => cases first
    | cons c t => exact markedBegins rfl x first ▸ other c rfl
  rw [marked, kept.leads.marks, flatMark flat, List.zip_cons_cons]
  exact splitBehind kept.whole head

/- Pieces that are kept, put together with separators, are split again. -/
theorem splitIntercalated (flat : Flat sep) {ps : List String} (written : ps ≠ [])
    (kept : ∀ p ∈ ps, Kept sep p.toList) (first : ∀ p ∈ ps.tail, ∃ c, p.toList.head? = some c ∧ c ≠ sep) :
    splitMarked sep (marked (String.intercalate (String.singleton sep) ps).toList) = ps.map String.toList := by
  induction ps with
  | nil => exact absurd rfl written
  | cons p ps ih =>
    obtain ⟨here, others⟩ := List.forall_mem_cons.mp kept
    cases ps with
    | nil => simpa using here.whole
    | cons q ps =>
      obtain ⟨front, later⟩ := List.forall_mem_cons.mp first
      obtain ⟨c, begins, other⟩ := front
      have behind := ih (List.cons_ne_nil q ps) others later
      generalize joined : String.intercalate (String.singleton sep) (q :: ps) = rest at behind
      have text : (String.intercalate (String.singleton sep) (p :: q :: ps)).toList =
          p.toList ++ sep :: rest.toList := by
        rw [String.intercalate_cons_cons, joined]
        simp
      have head : rest.toList.head? = some c := joined ▸ intercalateBegins begins ps
      rw [text, splitJoined here flat (by simpa [head] using other), behind]
      rfl

end Text

namespace Output

variable {x : Expr}

/- An expression is left whole, and what follows it is marked as it is alone. -/
theorem parseKept {text : String} (ok : Expr.parse text = .ok x) : Kept '|' text.toList := by
  obtain ⟨ls, lexed, -⟩ := parseReads.mp ok
  exact ⟨parseLeads ok 0, (Plain.ofLexes lexed).unsplit 0⟩

theorem parseCut {text front : String} {rest : List (List Char × Nat)}
    (cut : splitOutside '|' text.toList = (front.toList, 0) :: rest) (parsed : Expr.parse front = .ok x) :
    parse text = (calls rest).map fun filters => ⟨trim front, x, filters⟩ := by
  have solid : front.toList.all isBlank = false := Stencil.parseSolid parsed
  simp only [parse, cut, solid, String.ofList_toList, parsed]
  cases calls rest <;> rfl

end Output
end Stencil
