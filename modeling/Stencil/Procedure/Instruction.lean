import Stencil.Expr.Basic
import Stencil.Position

/-! Compiled templates: expressions are read, and every name of a filter or a function is bound. -/
namespace Stencil

structure BoundFilter where
  name : String
  callable : Callable
  args : List Value
  deriving Repr

inductive Instruction where
  | text (text : String)
  | emit (position : Position) (source : String) (expression : Expr) (filters : List BoundFilter)
  | branch (position : Position) (condition : Expr) (thenPart otherwise : List Instruction)
  | iterate (position : Position) (name : String) (collection : Expr) (body : List Instruction)
  | inclusion (position : Position) (name : String)
  | foreign (kind : String)
  deriving Repr, Inhabited

namespace Instruction

mutual

def count (i : Instruction) : Nat :=
  match i with
  | .branch _ _ thenPart otherwise => countAll thenPart + countAll otherwise + 1
  | .iterate _ _ _ body => countAll body + 1
  | _ => 1
termination_by structural i

def countAll (is : List Instruction) : Nat :=
  match is with
  | [] => 0
  | i :: is => count i + countAll is
termination_by structural is

end
end Instruction

/- Instructions and the functions that their expressions call, in the order of first use. -/
structure Procedure where
  instructions : List Instruction
  functions : List (String × Callable)
  revision : Nat
  deriving Repr

def Procedure.count (p : Procedure) : Nat := Instruction.countAll p.instructions

end Stencil
