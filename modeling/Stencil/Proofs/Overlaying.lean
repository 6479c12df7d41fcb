import Mathlib
import Stencil.Command.Run

/-! Values that are assigned to paths, over what is there. The path then leads to the value, and the paths beside it
lead where they led before, but for those into a sequence on its way: that gives way to a mapping. -/
namespace Stencil

namespace Path

open Text

/- Somewhere the two ways have different segments. -/
def Parts (p q : List String) : Prop := ∃ (n : Nat) (k o : String), p[n]? = some k ∧ q[n]? = some o ∧ k ≠ o

/- The first segments, in which the two ways agree, lead to a sequence. -/
def Listed (tree : Entries) (p q : List String) : Prop :=
  ∃ shared, shared <+: p ∧ shared <+: q ∧ ∃ v, walk (.map tree) shared = .ok v ∧ v.isSequence = true

variable {tree entries : Entries} {key other : String} {keys others p q : List String} {value v : Value}

theorem partsAhead (apart : key ≠ other) : Parts (key :: p) (other :: q) := ⟨0, key, other, rfl, rfl, apart⟩

theorem partsBehind (parts : Parts (key :: p) (key :: q)) : Parts p q := by
  obtain ⟨n, k, o, first, second, apart⟩ := parts
  cases n with
  | zero =>
    obtain rfl : key = k := Option.some.inj first
    obtain rfl : key = o := Option.some.inj second
    exact absurd rfl apart
  | succ n => exact ⟨n, k, o, first, second, apart⟩

theorem partsWritten (parts : Parts p q) : p ≠ [] ∧ q ≠ [] := by
  obtain ⟨n, k, o, first, second, -⟩ := parts
  constructor
  · rintro rfl
    cases first
  · rintro rfl
    cases second

theorem walkMapping (entries : Entries) (key : String) (rest : List String) :
    walk (.map entries) (key :: rest) = walk ((entries.get? key).getD .missing) rest := rfl

theorem walkScalar (notMap : ∀ entries, v ≠ .map entries) (single : v.isSequence = false) (written : q ≠ []) :
    walk v q = .ok .missing := by
  obtain ⟨key, rest, rfl⟩ := List.exists_cons_of_ne_nil written
  have stepped : step v key = .ok .missing := by
    cases v with
    | map entries => exact absurd rfl (notMap entries)
    | list items | tuple items => cases single
    | null | missing | str | bool | int | float | date | moment | time | set | callable => rfl
  rw [walk, stepped]
  exact walk_missing rest

theorem walkEmpty (written : q ≠ []) : walk (.map []) q = .ok .missing := by
  obtain ⟨key, rest, rfl⟩ := List.exists_cons_of_ne_nil written
  exact walk_missing rest

theorem listedApart (apart : key ≠ other) : ¬ Listed tree (key :: p) (other :: q) := by
  rintro ⟨shared, first, second, v, here, sequence⟩
  cases shared with
  | nil =>
    cases here
    cases sequence
  | cons s shared =>
    exact apart ((List.cons_prefix_cons.mp first).1.symm.trans (List.cons_prefix_cons.mp second).1)

theorem listedBehind (found : tree.get? key = some v) :
    Listed tree (key :: p) (key :: q) ↔
      ∃ shared, shared <+: p ∧ shared <+: q ∧ ∃ w, walk v shared = .ok w ∧ w.isSequence = true := by
  constructor
  · rintro ⟨shared, first, second, w, here, sequence⟩
    cases shared with
    | nil =>
      cases here
      cases sequence
    | cons s shared =>
      obtain ⟨rfl, ahead⟩ := List.cons_prefix_cons.mp first
      rw [walkMapping, found] at here
      exact ⟨shared, ahead, (List.cons_prefix_cons.mp second).2, w, here, sequence⟩
  · rintro ⟨shared, first, second, w, here, sequence⟩
    refine ⟨key :: shared, List.cons_prefix_cons.mpr ⟨rfl, first⟩, List.cons_prefix_cons.mpr ⟨rfl, second⟩, w, ?_,
      sequence⟩
    rwa [walkMapping, found]

theorem listedNowhere : ¬ Listed [] p q := by
  rintro ⟨shared, -, -, v, here, sequence⟩
  cases shared with
  | nil =>
    cases here
    cases sequence
  | cons s shared =>
    rw [walkEmpty (List.cons_ne_nil s shared)] at here
    cases here
    cases sequence

/- What is found under the first key of a way that goes on behind it. -/
theorem assignFound (tree : Entries) (key : String) (written : keys ≠ []) (value : Value) : ∃ inner,
    (assign tree (key :: keys) value).get? key = some (.map (assign inner keys value)) ∧
    (tree.get? key = some (.map inner) ∨ inner = [] ∧ ∀ entries, tree.get? key ≠ some (.map entries)) := by
  obtain ⟨next, rest, rfl⟩ := List.exists_cons_of_ne_nil written
  simp only [assign, Entries.get?_put, if_true]
  split
  · rename_i inner found
    exact ⟨inner, rfl, .inl found⟩
  · rename_i none
    exact ⟨[], rfl, .inr ⟨rfl, none⟩⟩

theorem assignBeside (tree : Entries) (keys : List String) (value : Value) (apart : key ≠ other) :
    (assign tree (key :: keys) value).get? other = tree.get? other := by
  cases keys <;> simp [assign, Entries.get?_put, apart.symm]

theorem walkAssigned (tree : Entries) (written : keys ≠ []) (value : Value) :
    walk (.map (assign tree keys value)) keys = .ok value := by
  induction keys generalizing tree with
  | nil => exact absurd rfl written
  | cons key keys ih =>
    rw [walkMapping]
    cases keys with
    | nil => simp [assign, Entries.get?_put, walk]
    | cons next rest =>
      obtain ⟨inner, found, -⟩ := assignFound tree key (List.cons_ne_nil next rest) value
      rw [found]
      exact ih inner (List.cons_ne_nil next rest)

/- Another way is as it was, unless it led into a sequence that has given way to a mapping. -/
theorem walkBeside (tree : Entries) (value : Value) (parts : Parts keys others) :
    (¬ Listed tree keys others → walk (.map (assign tree keys value)) others = walk (.map tree) others) ∧
    (Listed tree keys others → walk (.map (assign tree keys value)) others = .ok .missing) := by
  induction keys generalizing tree others with
  | nil => exact absurd rfl (partsWritten parts).1
  | cons key keys ih =>
    obtain ⟨other, others, rfl⟩ := List.exists_cons_of_ne_nil (partsWritten parts).2
    rw [walkMapping, walkMapping]
    by_cases same : key = other
    · subst same
      have behind := partsBehind parts
      obtain ⟨before, after⟩ := partsWritten behind
      obtain ⟨inner, found, was | ⟨rfl, other⟩⟩ := assignFound tree key before value
      · rw [found, was, listedBehind was]
        exact ih inner behind
      · -- Nothing is left of what stood here, so that all that leads further ends at nothing.
        have gone : walk (.map (assign [] keys value)) others = .ok .missing := by
          rw [(ih [] behind).1 listedNowhere, walkEmpty after]
        rw [found]
        refine ⟨fun single => ?_, fun _ => gone⟩
        refine gone.trans ?_
        cases was : tree.get? key with
        | none => exact (walk_missing others).symm
        | some v =>
          refine (walkScalar (fun entries same => other entries (was.trans (congrArg some same))) ?_ after).symm
          rw [Bool.eq_false_iff]
          intro sequence
          exact single ((listedBehind was).mpr ⟨[], List.nil_prefix, List.nil_prefix, v, rfl, sequence⟩)
    · rw [assignBeside tree keys value same]
      exact ⟨fun _ => rfl, fun listed => absurd listed (listedApart same)⟩

theorem resolveWalk {tree : Value} {path : String} (written : segments path ≠ []) :
    resolve tree path = walk tree (segments path) := by
  obtain ⟨s, rest, cut⟩ := List.exists_cons_of_ne_nil written
  rw [resolve, cut]

theorem segmentsPieces {path : String} (solid : ∀ part ∈ pieces '.' path.toList, part ≠ []) :
    segments path = (pieces '.' path.toList).map String.ofList ∧ segments path ≠ [] := by
  have kept : segments path = (pieces '.' path.toList).map String.ofList := by
    rw [segments, List.filter_eq_self.mpr]
    simpa using solid
  refine ⟨kept, ?_⟩
  rw [kept, ne_eq, List.map_eq_nil_iff]
  exact pieces_ne_nil _ _

end Path

namespace Command.Request

/- An assignment puts the value at its path, and every path that parts from it leads where it led before, unless the
segments in front of where they part lead to a sequence: that has given way to a mapping, and the other path leads
nowhere. A path with an empty part is refused, and the tree stays as it is. -/
theorem assignOverlays (tree : Entries) (path : String) (value : Value) :
    ((∀ part ∈ Text.pieces '.' path.toList, part ≠ []) → ∃ after, (assign path value).run tree = .ok () after ∧
      Path.resolve (.map after) path = .ok value ∧ ∀ other, Path.Parts (Path.segments path) (Path.segments other) →
        (¬ Path.Listed tree (Path.segments path) (Path.segments other) →
          Path.resolve (.map after) other = Path.resolve (.map tree) other) ∧
        (Path.Listed tree (Path.segments path) (Path.segments other) → Path.resolve (.map after) other = .ok .missing)) ∧
    ((∃ part ∈ Text.pieces '.' path.toList, part = []) →
      (assign path value).run tree = .error (.badPath path) tree) := by
  constructor
  · intro solid
    obtain ⟨kept, written⟩ := Path.segmentsPieces solid
    have whole : (Text.pieces '.' path.toList).any (·.isEmpty) = false := by simpa using solid
    refine ⟨Path.assign tree (Path.segments path) value, ?_, ?_, ?_⟩
    · rw [kept, assign]
      simp only [whole]
      rfl
    · rw [Path.resolveWalk written, Path.walkAssigned tree written value]
    · intro other parts
      rw [Path.resolveWalk (Path.partsWritten parts).2, Path.resolveWalk (Path.partsWritten parts).2]
      exact Path.walkBeside tree value parts
  · rintro ⟨part, member, rfl⟩
    have empty : (Text.pieces '.' path.toList).any (·.isEmpty) = true := List.any_eq_true.mpr ⟨[], member, rfl⟩
    rw [assign]
    simp only [empty]
    rfl

/- Two numbers in a list. -/
def sampleNumbers : Entries := [(.str "xs", .list [.int 1, .int 2])]

/- A number of a list is lost where a key is put below the list. -/
theorem listGivesWay : ¬ ∀ tree path value after, (assign path value).run tree = .ok () after →
    ∀ other, Path.Parts (Path.segments path) (Path.segments other) →
      Path.resolve (.map after) other = Path.resolve (.map tree) other := by
  intro always
  have parts : Path.Parts (Path.segments "xs.a") (Path.segments "xs.0") := ⟨1, "a", "0", by cbv, by cbv, by decide⟩
  have before : Path.resolve (.map sampleNumbers) "xs.0" = .ok (.int 1) := by cbv
  have after : Path.resolve (.map (Path.assign sampleNumbers ["xs", "a"] (.int 5))) "xs.0" = .ok .missing := by cbv
  have same := always sampleNumbers "xs.a" (.int 5) _ rfl "xs.0" parts
  rw [before] at same
  cases after.symm.trans same

end Command.Request
end Stencil
