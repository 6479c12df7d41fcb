import Mathlib
import Stencil.Proofs.Blocks

/-! What the check of a tree finds. Of a tree that was read it can say but one thing: that some of its nodes are
too deep. -/
namespace Stencil

namespace Node

/- The conditions of the tree are there. -/
def Conditioned : Node → Prop
  | .conditional _ condition .. => Text.allBlank condition = false
  | _ => True

def tooDeep (limit : Int) (n : Node) : String :=
  "AST nesting depth exceeds " ++ toString limit ++ (" at position " ++ n.position.text)

variable {limits : Limits} {limit : Int}

mutual

theorem faultlessConditioned {depth : Nat} {n : Node} (none : errorsAt limit depth n = []) :
    ∀ m ∈ n.all, m.Conditioned := by
  rw [errorsAt.eq_def] at none
  split at none
  · cases none
  · cases n with
    | text | output | inclusion | foreign => simp [all, Conditioned]
    | conditional p condition children otherwise =>
      simp only [List.append_eq_nil_iff] at none
      obtain ⟨⟨given, first⟩, second⟩ := none
      simp only [all, List.forall_mem_cons, List.forall_mem_append]
      exact ⟨by simpa [Conditioned] using given, faultlessAllConditioned first,
        faultlessAllConditioned second⟩
    | loop p name collection children =>
      simp only [List.append_eq_nil_iff] at none
      simp only [all, List.forall_mem_cons]
      exact ⟨trivial, faultlessAllConditioned none.2⟩
    | root p children =>
      simp only [all, List.forall_mem_cons]
      exact ⟨trivial, faultlessAllConditioned none⟩

theorem faultlessAllConditioned {depth : Nat} {ns : List Node} (none : errorsOf limit depth ns = []) :
    ∀ m ∈ allOf ns, m.Conditioned := by
  cases ns with
  | nil => simp [allOf]
  | cons n ns =>
    simp only [errorsOf, List.append_eq_nil_iff] at none
    simp only [allOf, List.forall_mem_append]
    exact ⟨faultlessConditioned none.1, faultlessAllConditioned none.2⟩

end

theorem memSelf (n : Node) : n ∈ n.all := by
  rw [all.eq_def]
  exact List.mem_cons_self

/- A node that a directive stands for, with a condition if it needs one. -/
structure Sound (limits : Limits) (n : Node) : Prop where
  proper : n.Proper limits
  conditioned : n.Conditioned

theorem loopNamed {name : String} (ascii : Text.isAsciiName name.toList = true) : isLoopName name = true := by
  rw [isLoopName, Text.chompLine, if_neg]
  · exact ascii
  · intro ends
    have member : '\n' ∈ name.toList := List.mem_of_getLast? ends
    cases parts : name.toList with
    | nil => simp [parts] at member
    | cons c rest =>
      simp only [parts, Text.isAsciiName, Bool.and_eq_true, List.all_eq_true] at ascii member
      have word : Text.isAsciiWord '\n' = true := by
        rcases List.mem_cons.mp member with rfl | later
        · exact Text.startWord ascii.1
        · exact ascii.2 _ later
      revert word
      decide

mutual

/- All that can be wrong with a sound node is its depth. -/
theorem errorsDeep {depth : Nat} {n : Node} (sound : ∀ m ∈ n.all, m.Sound limits) :
    ∀ error ∈ errorsAt limit depth n, ∃ m ∈ n.all, error = tooDeep limit m := by
  obtain ⟨proper, conditioned⟩ := sound n n.memSelf
  rw [errorsAt.eq_def]
  split
  · intro error member
    exact ⟨n, n.memSelf, List.mem_singleton.mp member⟩
  · cases n with
    | text | output => simp
    | inclusion p name =>
      have given : Text.allBlank name = false := proper
      simp [given]
    | root | foreign => exact proper.elim
    | conditional p condition children otherwise =>
      simp only [all, List.forall_mem_cons, List.forall_mem_append] at sound
      simp only [Conditioned] at conditioned
      simp only [conditioned, Bool.false_eq_true, if_false, List.nil_append]
      intro error member
      rcases List.mem_append.mp member with first | second
      · obtain ⟨m, inside, deep⟩ := errorsAllDeep sound.2.1 error first
        exact ⟨m, by simp [all, inside], deep⟩
      · obtain ⟨m, inside, deep⟩ := errorsAllDeep sound.2.2 error second
        exact ⟨m, by simp [all, inside], deep⟩
    | loop p name collection children =>
      simp only [all, List.forall_mem_cons] at sound
      obtain ⟨solid, ascii⟩ := proper
      simp only [solid, loopNamed ascii, Bool.false_eq_true, if_false, if_true, List.nil_append]
      intro error member
      obtain ⟨m, inside, deep⟩ := errorsAllDeep sound.2 error member
      exact ⟨m, by simp [all, inside], deep⟩

theorem errorsAllDeep {depth : Nat} {ns : List Node} (sound : ∀ m ∈ allOf ns, m.Sound limits) :
    ∀ error ∈ errorsOf limit depth ns, ∃ m ∈ allOf ns, error = tooDeep limit m := by
  cases ns with
  | nil => simp [errorsOf]
  | cons n ns =>
    simp only [allOf, List.forall_mem_append] at sound
    intro error member
    rcases List.mem_append.mp member with first | others
    · obtain ⟨m, inside, deep⟩ := errorsDeep sound.1 error first
      exact ⟨m, by simp [allOf, inside], deep⟩
    · obtain ⟨m, inside, deep⟩ := errorsAllDeep sound.2 error others
      exact ⟨m, by simp [allOf, inside], deep⟩

end

mutual

/- Nothing is wrong with a sound node as long as all that is in it is above the limit. -/
theorem faultless {depth : Nat} {n : Node} (sound : ∀ m ∈ n.all, m.Sound limits) :
    errorsAt limit depth n = [] ↔ depth + n.height ≤ limit := by
  obtain ⟨proper, conditioned⟩ := sound n n.memSelf
  rw [errorsAt.eq_def]
  split
  · simp only [reduceCtorEq, false_iff]
    omega
  · rename_i above
    have above : depth ≤ limit := by omega
    cases n with
    | text | output => simpa [height] using above
    | inclusion p name =>
      have given : Text.allBlank name = false := proper
      simpa [given, height] using above
    | root | foreign => exact proper.elim
    | conditional p condition children otherwise =>
      simp only [all, List.forall_mem_cons, List.forall_mem_append] at sound
      have given : Text.allBlank condition = false := conditioned
      simp only [given, Bool.false_eq_true, if_false, List.nil_append, List.append_eq_nil_iff,
        faultlessAll sound.2.1 above, faultlessAll sound.2.2 above, height]
      omega
    | loop p name collection children =>
      simp only [all, List.forall_mem_cons] at sound
      obtain ⟨solid, ascii⟩ := proper
      simp only [solid, loopNamed ascii, Bool.false_eq_true, if_false, if_true, List.nil_append,
        faultlessAll sound.2 above, height]

theorem faultlessAll {depth : Nat} {ns : List Node} (sound : ∀ m ∈ allOf ns, m.Sound limits)
    (above : depth ≤ limit) : errorsOf limit (depth + 1) ns = [] ↔ depth + heightOf ns ≤ limit := by
  cases ns with
  | nil => simpa [errorsOf, heightOf] using above
  | cons n ns =>
    simp only [allOf, List.forall_mem_append] at sound
    simp only [errorsOf, List.append_eq_nil_iff, faultless sound.1, faultlessAll sound.2 above, heightOf]
    omega

end

end Node
end Stencil
