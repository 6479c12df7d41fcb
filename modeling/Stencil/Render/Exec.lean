import Stencil.Expr.Printer
import Stencil.Render.Frame

/-! Running procedures. The time limit is checked before every instruction and at every turn of a
loop. -/
namespace Stencil

abbrev Includer := Option (String → Run Unit)

namespace Run

def machine (host : Host) (functions : List (String × Callable)) : Expr.Machine RunState :=
  ⟨resolve host, functions, call host⟩

def evaluate (host : Host) (functions : List (String × Callable)) (p : Position) (e : Expr) :
    Run Value :=
  (e.eval (machine host functions)).adaptExcept fun
    | .problem text => .template (.located p (.evaluation text e.text))
    | .passed f => f

def applyFilters (host : Host) (p : Position) : List BoundFilter → Value → Run Value
  | [], v => return v
  | f :: fs, v => do
    match ← call host f.callable (v :: f.args) with
    | .ok v => applyFilters host p fs v
    | .error (.template e) => throw (.template e)
    | .error fault => throw (.template (.located p (.filterFailed f.name fault.text)))

def loopScope (name : String) (index last : Nat) (item : Value) : Scope := [
  (elementName, item), (name, item), (name ++ "_index", .int index),
  (name ++ "_first", .bool (index == 0)), (name ++ "_last", .bool (index == last))]

/- Runs the body once for each element; `index` is the index of the first one. -/
def eachItem (host : Host) (name : String) (body : Run Unit) (last index : Nat) :
    List Value → Run Unit
  | [] => return
  | item :: items => do
    checkDeadline host
    within (loopScope name index last item) body
    eachItem host name body last (index + 1) items

mutual

def exec (host : Host) (includer : Includer) (functions : List (String × Callable))
    (i : Instruction) : Run Unit :=
  match i with
  | .text s => write s
  | .emit p _ e filters => do
    let v ← evaluate host functions p e
    let v ← applyFilters host p filters v.plain
    write (← lift v.text)
  | .branch p condition thenPart otherwise => do
    let v ← evaluate host functions p condition
    if v.isTruthy then execAll host includer functions thenPart
    else execAll host includer functions otherwise
  | .iterate p name collection body => do
    let v ← evaluate host functions p collection
    let items := v.items?.getD []
    eachItem host name (execAll host includer functions body) (items.length - 1) 0 items
  | .inclusion p name =>
    match includer with
    | none => throw (.template (.located p (.noLoader name)))
    | some run => run name
  | .foreign kind => throw (.template (.of (.unknownInstruction kind)))
termination_by structural i

def execAll (host : Host) (includer : Includer) (functions : List (String × Callable))
    (is : List Instruction) : Run Unit :=
  match is with
  | [] => return
  | i :: is => do
    checkDeadline host
    exec host includer functions i
    execAll host includer functions is
termination_by structural is

end

def execute (host : Host) (includer : Includer) (t : Template) : Run Unit := do
  require host t.dependencies
  execAll host includer t.procedure.functions t.procedure.instructions

end Run
end Stencil
