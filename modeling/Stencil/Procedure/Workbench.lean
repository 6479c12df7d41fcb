import Stencil.Procedure.Compiler

/-! A compiler that is kept and used again. What it has gathered and the scopes that are open outlive a template,
whether it could be compiled or not. -/
namespace Stencil

/- The names that the innermost open loop binds stand first. -/
structure Workbench where
  registry : Registry
  gathered : Gathered
  bound : List (List String)
  deriving Repr

/- A step of a compilation. What was noted before a failure stays noted. -/
abbrev Work := EStateM Failure Workbench

namespace Workbench

def fresh (env : Registry) : Workbench := ⟨env, .nothing, []⟩

def binds (b : Workbench) (path : String) : Bool := b.bound.any (·.contains (Path.root path))

def lift : Except Failure α → Work α
  | .ok a => pure a
  | .error f => throw f

def notePath (path : String) : Work Unit :=
  modify fun b =>
    if b.binds path then b
    else { b with gathered := { b.gathered with paths := appendNew path b.gathered.paths } }

def noteFunction (p : Position) (name : String) : Work Unit := do
  match (← get).registry.get? .function name with
  | none => throw (Procedure.wrong p (.unknownFunction name))
  | some c => modify fun b => { b with gathered := b.gathered.addFunction name c }

def register (p : Position) (e : Expr) : Work Unit := do
  e.paths.forM notePath
  e.functions.forM (noteFunction p)

def expression (p : Position) (text : String) : Work Expr := do
  let e ← lift ((Expr.parse text).mapError (Procedure.unreadable p text))
  register p e
  return e

/- Works with the names of a loop, which are given up afterwards whether the work fails or not. -/
def binding (names : List String) (body : Work α) : Work α := do
  modify fun b => { b with bound := names :: b.bound }
  tryFinally body (modify fun b => { b with bound := b.bound.tail })

mutual

def node (n : Node) : Work Instruction :=
  match n with
  | .text _ s => return .text s
  | .output p text => do
    let o ← lift ((Output.parse text).mapError (Procedure.unreadable p text))
    register p o.expression
    let filters ← lift (Procedure.bindFilters (← get).registry p o.filters)
    return .emit p o.source o.expression filters
  | .conditional p condition children otherwise =>
    if Text.allBlank condition then throw (Procedure.wrong p .emptyCondition)
    else do
      let e ← expression p condition
      let thenPart ← nodes children
      let otherwise ← nodes otherwise
      return .branch p e thenPart otherwise
  | .loop p name collection children =>
    if Text.allBlank collection || !Text.isIdentifier name.toList then
      throw (Procedure.wrong p (.badLoopHeader (name ++ " in " ++ collection)))
    else do
      let e ← expression p collection
      let body ← binding (loopNames name) (nodes children)
      return .iterate p name e body
  | .inclusion p name => return .inclusion p name
  | .root p _ => throw (Procedure.wrong p (.unknownNode "root"))
  | .foreign p kind _ => throw (Procedure.wrong p (.unknownNode kind))
termination_by structural n

def nodes (ns : List Node) : Work (List Instruction) :=
  match ns with
  | [] => return []
  | n :: ns => do
    let i ← node n
    let is ← nodes ns
    return i :: is
termination_by structural ns

end

/- Begins anew: nothing of an earlier template is left. -/
def compile (n : Node) : Work Procedure.Compiled := do
  modify fun b => { b with gathered := .nothing, bound := [] }
  match n with
  | .root _ children => do
    let instructions ← nodes children
    let b ← get
    return ⟨⟨instructions, b.gathered.functions, b.registry.revision⟩, b.gathered.paths⟩
  | n => throw (.template (.of (.unknownRoot n.kind)))

def outcome (b : Workbench) (tree : Node) : Except Failure Procedure.Compiled :=
  match compile tree b with
  | .ok c _ => .ok c
  | .error f _ => .error f

/- The compiler as one tree leaves it, and as many of them leave it. -/
def used (b : Workbench) (tree : Node) : Workbench :=
  match compile tree b with
  | .ok _ b' | .error _ b' => b'

def after (b : Workbench) (trees : List Node) : Workbench := trees.foldl used b

end Workbench
end Stencil
