/-! Parsers that go over a list with a cursor. They call themselves at the places that they have come to, for as long as
there is fuel. Nothing in them says that any fuel is enough, or that there is something at the cursor. -/
namespace Stencil

/- Why a descent stops before it is through: what was read is refused, the cursor has left the list, or it was not given
the fuel for as many calls inside of each other. -/
inductive Halt (ε : Type) where
  | refused (fault : ε)
  | outside
  | exhausted
  deriving DecidableEq, Repr

abbrev Descent (ε α : Type) := Except (Halt ε) α

namespace Descent

variable {ε α : Type}

def refuse (fault : ε) : Descent ε α := throw (.refused fault)

def given : Except ε α → Descent ε α
  | .ok a => pure a
  | .error fault => refuse fault

/- What stands at the cursor. -/
def current (xs : List α) (place : Nat) : Descent ε α :=
  match xs[place]? with
  | some x => pure x
  | none => throw .outside

end Descent
end Stencil
