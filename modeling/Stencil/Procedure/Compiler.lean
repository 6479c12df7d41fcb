import Stencil.Expr.Output
import Stencil.Markup.Node
import Stencil.Procedure.Instruction
import Stencil.Registry
import Stencil.Text.Identifier

/-! Procedures from trees. Along the way the variables that a template reads are collected: paths whose
first part no enclosing loop binds, in the order of first occurrence. -/
namespace Stencil

def elementName : String := "this"

def loopNames (name : String) : List String :=
  [name, name ++ "_index", name ++ "_first", name ++ "_last", elementName]

def appendNew [BEq α] (x : α) (xs : List α) : List α := if xs.contains x then xs else xs ++ [x]

theorem mem_appendNew [BEq α] [LawfulBEq α] {x y : α} {xs : List α} :
    y ∈ appendNew x xs ↔ y = x ∨ y ∈ xs := by
  unfold appendNew
  split
  · next h =>
    have hx : x ∈ xs := by simpa using h
    constructor
    · exact .inr
    · rintro (rfl | h') <;> assumption
  · simp [or_comm]

structure Gathered where
  paths : List String
  functions : List (String × Callable)
  deriving Repr

namespace Gathered

def nothing : Gathered := ⟨[], []⟩

/- Adds a path unless a loop binds its root. -/
def addPath (bound : List String) (g : Gathered) (path : String) : Gathered :=
  if bound.contains (Path.root path) then g else { g with paths := appendNew path g.paths }

def addFunction (g : Gathered) (name : String) (c : Callable) : Gathered :=
  { g with functions := Bindings.insert g.functions name c }

end Gathered

namespace Procedure

def wrong (p : Position) (reason : Reason) : Failure := .template (.located p reason)

def unreadable (p : Position) (text : String) (f : SyntaxFault) : Failure :=
  match f.value? with
  | some fault => .value fault
  | none => wrong p (.badExpression text f.problem.message f.place)

def bindFunctions (env : Registry) (p : Position) (g : Gathered) :
    List String → Except Failure Gathered
  | [] => .ok g
  | name :: names =>
    match env.get? .function name with
    | none => .error (wrong p (.unknownFunction name))
    | some c => bindFunctions env p (g.addFunction name c) names

def register (env : Registry) (bound : List String) (p : Position) (g : Gathered) (e : Expr) :
    Except Failure Gathered :=
  bindFunctions env p (e.paths.foldl (Gathered.addPath bound) g) e.functions

def bindFilters (env : Registry) (p : Position) :
    List FilterCall → Except Failure (List BoundFilter)
  | [] => .ok []
  | f :: fs =>
    match env.get? .filter f.name with
    | none => .error (wrong p (.unknownFilter f.name))
    | some c => do
      let rest ← bindFilters env p fs
      return ⟨f.name, c, f.args⟩ :: rest

def compileExpr (env : Registry) (bound : List String) (p : Position) (g : Gathered) (text : String) :
    Except Failure (Expr × Gathered) := do
  let e ← (Expr.parse text).mapError (unreadable p text)
  let g ← register env bound p g e
  return (e, g)

mutual

/- Compiles a node where `bound` are the names that enclosing loops bind. -/
def compileNode (env : Registry) (bound : List String) (g : Gathered) (n : Node) :
    Except Failure (Instruction × Gathered) :=
  match n with
  | .text _ s => .ok (.text s, g)
  | .output p text => do
    let o ← (Output.parse text).mapError (unreadable p text)
    let g ← register env bound p g o.expression
    let filters ← bindFilters env p o.filters
    return (.emit p o.source o.expression filters, g)
  | .conditional p condition children otherwise =>
    if Text.allBlank condition then .error (wrong p .emptyCondition)
    else do
      let (e, g) ← compileExpr env bound p g condition
      let (thenPart, g) ← compileNodes env bound g children
      let (otherwise, g) ← compileNodes env bound g otherwise
      return (.branch p e thenPart otherwise, g)
  | .loop p name collection children =>
    if Text.allBlank collection || !Text.isIdentifier name.toList then
      .error (wrong p (.badLoopHeader (name ++ " in " ++ collection)))
    else do
      let (e, g) ← compileExpr env bound p g collection
      let (body, g) ← compileNodes env (loopNames name ++ bound) g children
      return (.iterate p name e body, g)
  | .inclusion p name => .ok (.inclusion p name, g)
  | .root p _ => .error (wrong p (.unknownNode "root"))
  | .foreign p kind _ => .error (wrong p (.unknownNode kind))
termination_by structural n

def compileNodes (env : Registry) (bound : List String) (g : Gathered) (ns : List Node) :
    Except Failure (List Instruction × Gathered) :=
  match ns with
  | [] => .ok ([], g)
  | n :: ns => do
    let (i, g) ← compileNode env bound g n
    let (is, g) ← compileNodes env bound g ns
    return (i :: is, g)
termination_by structural ns

end

structure Compiled where
  procedure : Procedure
  dependencies : List String
  deriving Repr

def compile (env : Registry) (n : Node) : Except Failure Compiled :=
  match n with
  | .root _ children => do
    let (instructions, g) ← compileNodes env [] .nothing children
    return ⟨⟨instructions, g.functions, env.revision⟩, g.paths⟩
  | n => .error (.template (.of (.unknownRoot n.kind)))

end Procedure
end Stencil
