import Mathlib
import Stencil.Render.Result

/-! Names that cover the paths of a template: those whose parts are the first parts of a path. What is missing is found
by the paths that lead to a path, what is left over by the dot behind a name. Both are this one relation, whatever
stands between the dots. -/
namespace Stencil

namespace Template

open Text

/- The parts of the name, between its dots, are the first parts of the path. -/
def Covers (name path : String) : Prop := pieces '.' name.toList <+: pieces '.' path.toList

instance (name path : String) : Decidable (Covers name path) :=
  inferInstanceAs (Decidable (pieces '.' name.toList <+: pieces '.' path.toList))

theorem waypointPieces {name path : String} : name ∈ waypoints path ↔
    ∃ n < (pieces '.' path.toList).length, pieces '.' name.toList = (pieces '.' path.toList).take (n + 1) := by
  have begun (n : Nat) (some : n < (pieces '.' path.toList).length) :
      pieces '.' (List.intercalate ['.'] ((pieces '.' path.toList).take (n + 1))) =
        (pieces '.' path.toList).take (n + 1) := by
    refine pieces_intercalate ?_ fun p member => not_mem_of_mem_pieces p (List.mem_of_mem_take member)
    rw [ne_eq, List.take_eq_nil_iff]
    exact not_or.mpr ⟨Nat.succ_ne_zero n, pieces_ne_nil _ _⟩
  rw [waypoints, List.mem_map]
  refine exists_congr fun n => ?_
  rw [List.mem_range]
  refine and_congr_right fun some => ⟨?_, fun same => ?_⟩
  · rintro rfl
    rw [String.toList_ofList, begun n some]
  · rw [← same, intercalate_pieces, String.ofList_toList]

theorem waypointCovers {name path : String} : name ∈ waypoints path ↔ Covers name path := by
  rw [waypointPieces, Covers, List.prefix_iff_eq_take]
  constructor
  · rintro ⟨n, some, same⟩
    have long : (pieces '.' name.toList).length = n + 1 := by
      rw [same, List.length_take]
      omega
    rw [long, same]
  · intro same
    have short := congrArg List.length same
    have some := List.length_pos_iff.mpr (pieces_ne_nil '.' name.toList)
    rw [List.length_take] at short
    refine ⟨(pieces '.' name.toList).length - 1, by omega, ?_⟩
    rwa [Nat.sub_add_cancel some]

theorem isServedCovered {names : List String} {path : String} :
    isServed names path = true ↔ ∃ name ∈ names, Covers name path := by
  simp only [isServed, List.any_eq_true, List.contains_eq_mem, decide_eq_true_eq, waypointCovers]
  exact exists_congr fun name => and_comm

theorem servesCovers {name path : String} : serves name path = true ↔ Covers name path := by
  rw [serves, Bool.or_eq_true, beq_iff_eq, List.isPrefixOf_iff_prefix]
  constructor
  · rintro (rfl | ⟨rest, behind⟩)
    · exact List.prefix_refl _
    · rw [List.append_assoc, List.singleton_append] at behind
      rw [Covers, ← behind, pieces_append]
      exact List.prefix_append _ _
  · rintro ⟨rest, parts⟩
    cases rest with
    | nil =>
      rw [List.append_nil] at parts
      exact .inl (String.toList_injective (pieces_inj.mp parts).symm)
    | cons p ps =>
      refine .inr ⟨List.intercalate ['.'] (p :: ps), ?_⟩
      have apart : ∀ q ∈ p :: ps, '.' ∉ q := by
        intro q member
        exact not_mem_of_mem_pieces (s := path.toList) q (parts ▸ List.mem_append_right _ member)
      suffices same : pieces '.' (name.toList ++ ['.'] ++ List.intercalate ['.'] (p :: ps)) = pieces '.' path.toList from
        pieces_inj.mp same
      rw [List.append_assoc, List.singleton_append, pieces_append, pieces_intercalate (List.cons_ne_nil p ps) apart, parts]

/- Names in the order in which each of them is first met. -/
theorem namesOrdered (available : List String) :
    (∀ name, name ∈ available.foldl (fun seen name => appendNew name seen) [] ↔ name ∈ available) ∧
    (available.foldl (fun seen name => appendNew name seen) []).Pairwise
      (fun a b => available.idxOf a < available.idxOf b) := by
  induction available using List.reverseRecOn with
  | nil => simp
  | append_singleton names name ih =>
    obtain ⟨members, ordered⟩ := ih
    rw [List.foldl_append, List.foldl_cons, List.foldl_nil]
    refine ⟨fun other => ?_, ?_⟩
    · rw [mem_appendNew, members, List.mem_append, List.mem_singleton]
      exact or_comm
    · -- What was met before stays in its place; a name that is new comes behind all of it.
      have before : (names.foldl (fun seen name => appendNew name seen) []).Pairwise
          (fun a b => (names ++ [name]).idxOf a < (names ++ [name]).idxOf b) := by
        refine ordered.imp_of_mem fun {a b} first second earlier => ?_
        rwa [List.idxOf_append_of_mem ((members a).mp first), List.idxOf_append_of_mem ((members b).mp second)]
      rw [appendNew]
      split
      · exact before
      · rename_i new
        have absent : name ∉ names := by
          rw [← members]
          simpa using new
        rw [List.pairwise_append]
        refine ⟨before, List.pairwise_singleton _ _, fun a first b last => ?_⟩
        obtain rfl := List.mem_singleton.mp last
        have earlier := (members a).mp first
        rw [List.idxOf_append_of_mem earlier, List.idxOf_append_of_notMem absent]
        exact Nat.lt_add_right _ (List.idxOf_lt_length_of_mem earlier)

/- Whatever a template depends on and whatever is available: the dependencies that no name covers are missing, in their
order; the names that cover none are left over, each once and as they are first met; and nothing is missing if each
dependency is covered. -/
theorem coverageExact (t : Template) (available : List String) :
    (coverage t.dependencies available).missing =
      t.dependencies.filter (fun path => ∀ name ∈ available, ¬ Covers name path) ∧
    (∀ name, name ∈ (coverage t.dependencies available).extra ↔
      name ∈ available ∧ ∀ path ∈ t.dependencies, ¬ Covers name path) ∧
    (coverage t.dependencies available).extra.Pairwise (fun a b => available.idxOf a < available.idxOf b) ∧
    ((coverage t.dependencies available).complete = true ↔ (coverage t.dependencies available).missing = []) ∧
    ((coverage t.dependencies available).complete = true ↔
      ∀ path ∈ t.dependencies, ∃ name ∈ available, Covers name path) := by
  obtain ⟨members, ordered⟩ := namesOrdered available
  have missing : (coverage t.dependencies available).missing =
      t.dependencies.filter (fun path => ∀ name ∈ available, ¬ Covers name path) := by
    refine List.filter_congr fun path _ => ?_
    rw [Bool.eq_iff_iff, Bool.not_eq_true', Bool.eq_false_iff, ne_eq, isServedCovered, decide_eq_true_eq]
    simp only [members, not_exists, not_and]
  have complete : (coverage t.dependencies available).complete = true ↔
      (coverage t.dependencies available).missing = [] := List.isEmpty_iff
  refine ⟨missing, fun name => ?_, ordered.filter _, complete, ?_⟩
  · change name ∈ List.filter _ _ ↔ _
    rw [List.mem_filter, members, Bool.not_eq_true', List.any_eq_false]
    simp only [servesCovers]
  · rw [complete, missing, List.filter_eq_nil_iff]
    simp only [decide_eq_true_eq, not_forall, not_not, exists_prop]

example : coverage ["user.name", "count"] ["use", "user", "user.", "use"] = ⟨["count"], ["use", "user."]⟩ := by decide

end Template
end Stencil
