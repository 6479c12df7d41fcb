import Stencil.Descent
import Stencil.Markup.Parser

/-! Trees from tokens by descent, one function for each form. The blocks that are open are those whose functions have
not returned. Each call takes one unit of the fuel, and so does each turn of a loop. -/
namespace Stencil.Node.Descent

open Stencil.Descent

/- The end of the tokens is never passed. -/
def advance (ts : List Token) (place : Nat) : Descent TemplateError Nat := do
  let t ← current ts place
  return if t.kind = .eof then place else place + 1

/- How many blocks are open inside of the one that starts here. -/
def enter (limits : Limits) (start : Token) (depth : Nat) : Descent TemplateError Nat :=
  if limits.depth ≤ depth then refuse (wrong start (.tooDeep limits.depth)) else return depth + 1

mutual

/- The nodes up to the next token that turns or closes a block, or ends the template. That one is left. -/
def nodes (fuel : Nat) (limits : Limits) (ts : List Token) (depth place : Nat) :
    Descent TemplateError (List Node × Nat) :=
  match fuel with
  | 0 => throw .exhausted
  | fuel + 1 => do
    match ← node fuel limits ts depth place with
    | (none, place) => return ([], place)
    | (some n, place) =>
      let (ns, place) ← nodes fuel limits ts depth place
      return (n :: ns, place)
termination_by structural fuel

def node (fuel : Nat) (limits : Limits) (ts : List Token) (depth place : Nat) :
    Descent TemplateError (Option Node × Nat) :=
  match fuel with
  | 0 => throw .exhausted
  | fuel + 1 => do
    let t ← current ts place
    match t.kind with
    | .conditionalElse | .conditionalEnd | .loopEnd | .eof => return (none, place)
    | .conditionalStart =>
      let (n, place) ← conditional fuel limits ts depth t (← advance ts place)
      return (some n, place)
    | .loopStart =>
      let (n, place) ← loop fuel limits ts depth t (← advance ts place)
      return (some n, place)
    | .text | .output | .inclusion | .comment =>
      let place ← advance ts place
      return (some (← given (leaf limits t)), place)
termination_by structural fuel

def conditional (fuel : Nat) (limits : Limits) (ts : List Token) (depth : Nat) (start : Token) (place : Nat) :
    Descent TemplateError (Node × Nat) :=
  match fuel with
  | 0 => throw .exhausted
  | fuel + 1 => do
    let ((children, otherwise), place) ← branches fuel limits ts (← enter limits start depth) start none place
    return (.conditional start.position (trimmed start) children otherwise, place)
termination_by structural fuel

/- The branches of a block. `children` is the first one, once the second is read. -/
def branches (fuel : Nat) (limits : Limits) (ts : List Token) (depth : Nat) (start : Token)
    (children : Option (List Node)) (place : Nat) : Descent TemplateError ((List Node × List Node) × Nat) :=
  match fuel with
  | 0 => throw .exhausted
  | fuel + 1 => do
    let (branch, place) ← nodes fuel limits ts depth place
    let t ← current ts place
    match t.kind, children with
    | .conditionalEnd, none => return ((branch, []), ← advance ts place)
    | .conditionalEnd, some children => return ((children, branch), ← advance ts place)
    | .conditionalElse, none => branches fuel limits ts depth start (some branch) (← advance ts place)
    | .conditionalElse, some _ => refuse (wrong t (.repeatedElse start.position))
    | .eof, _ => refuse (wrong start (.unclosedBlock .conditional))
    | kind, _ => refuse (wrong t (.misplacedToken kind.word .conditional start.position))
termination_by structural fuel

def loop (fuel : Nat) (limits : Limits) (ts : List Token) (depth : Nat) (start : Token) (place : Nat) :
    Descent TemplateError (Node × Nat) :=
  match fuel with
  | 0 => throw .exhausted
  | fuel + 1 => do
    let depth ← enter limits start depth
    let (name, collection) ← given ((Loop.header start.value).mapError (wrong start))
    let (children, place) ← nodes fuel limits ts depth place
    let t ← current ts place
    match t.kind with
    | .loopEnd => return (.loop start.position name collection children, ← advance ts place)
    | .eof => refuse (wrong start (.unclosedBlock .loop))
    | kind => refuse (wrong t (.misplacedToken kind.word .loop start.position))
termination_by structural fuel

end

def parse (fuel : Nat) (limits : Limits) (ts : List Token) : Descent TemplateError Node := do
  if (ts.getLast?.map (·.kind)) = some .eof then
    let (children, place) ← nodes fuel limits ts 0 0
    let t ← current ts place
    if t.kind = .eof then return .root .start children
    else refuse (wrong t (.unexpectedToken t.kind.word))
  else refuse (.of .noEnd)

end Stencil.Node.Descent
