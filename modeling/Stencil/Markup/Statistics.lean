import Stencil.Markup.Node

/-! What one walk over a tree finds: how many nodes there are, how many of each kind, and how deep they lie. -/
namespace Stencil.Node

structure Statistics where
  total : Nat
  counts : List (String × Nat)
  depth : Nat
  deriving DecidableEq, Repr

/- What was met so far. -/
structure Visited where
  counts : List (String × Nat)
  depth : Nat
  deriving DecidableEq, Repr

mutual

def visit (depth : Nat) (v : Visited) (n : Node) : Visited :=
  let here : Visited := ⟨bump n.kind v.counts, max v.depth depth⟩
  match n with
  | .conditional _ _ children otherwise =>
    visitAll (depth + 1) (visitAll (depth + 1) here children) otherwise
  | .loop _ _ _ children | .root _ children => visitAll (depth + 1) here children
  | _ => here
termination_by structural n

def visitAll (depth : Nat) (v : Visited) (ns : List Node) : Visited :=
  match ns with
  | [] => v
  | n :: ns => visitAll depth (visit depth v n) ns
termination_by structural ns

end

def statistics (n : Node) : Statistics :=
  let met := visit 0 ⟨[], 0⟩ n
  ⟨totalOf met.counts, met.counts, met.depth⟩

end Stencil.Node
