import Stencil.Expr.Basic
import Stencil.Fault

/-! The value of an expression. -/
namespace Stencil

inductive EvalFault where
  | problem (text : String)
  | passed (f : Failure)
  deriving Repr

namespace Expr

/- What an evaluation needs: the values of paths, the functions that may be called, and a way to call
them. The state is kept when something fails. -/
structure Machine (σ : Type) where
  resolve : String → EStateM Failure σ Value
  functions : List (String × Callable)
  call : Callable → List Value → EStateM Failure σ (Except CallFault Value)

variable {σ : Type}

def called (name : String) : Except CallFault Value → EStateM EvalFault σ Value
  | .ok v => pure v
  | .error f => throw (.problem ("Function '" ++ name ++ "' failed: " ++ f.text))

def compared : Except ValueFault Bool → EStateM EvalFault σ Value
  | .ok b => pure (.bool b)
  | .error f =>
    if f.family = .value then throw (.problem f.message) else throw (.passed (.value f))

mutual

/- A conjunction or a disjunction has the value of the operand that settles it, and leaves the second
one alone if the first does. -/
def eval (m : Machine σ) (e : Expr) : EStateM EvalFault σ Value :=
  match e with
  | .literal v => pure v
  | .path p => (m.resolve p).adaptExcept .passed
  | .call name args =>
    match m.functions.lookup name with
    | none => throw (.problem ("Unknown function: " ++ name))
    | some f => do
      let values ← evalAll m args
      called name (← (m.call f (values.map Value.plain)).adaptExcept .passed)
  | .group e => eval m e
  | .not e => do
    let v ← eval m e
    return .bool (!v.isTruthy)
  | .and left right => do
    let v ← eval m left
    if v.isTruthy then eval m right else return v
  | .or left right => do
    let v ← eval m left
    if v.isTruthy then return v else eval m right
  | .compare relation left right => do
    let a ← eval m left
    let b ← eval m right
    compared (Value.compare relation a b)
termination_by structural e

def evalAll (m : Machine σ) (es : List Expr) : EStateM EvalFault σ (List Value) :=
  match es with
  | [] => return []
  | e :: es => do
    let v ← eval m e
    let vs ← evalAll m es
    return v :: vs
termination_by structural es

end
end Expr
end Stencil
