import Stencil.Proofs.Settled
import Stencil.Proofs.Translation

/-! Templates read off their trees, without instructions, without scopes to open and close and without
lookups that change anything. Running what the compiler made of a tree does the same: the same output or
the same first error, after the same calls. Includes, time limits and strict mode are left out. -/
namespace Stencil

/- One turn of a loop: its element, the index of that element and the index of the last one. -/
structure Turn where
  name : String
  item : Value
  index : Nat
  last : Nat

namespace Turn

/- What a turn binds a word to. -/
def value? (t : Turn) (word : String) : Option Value :=
  if word = elementName ∨ word = t.name then some t.item
  else if word = t.name ++ "_index" then some (.int t.index)
  else if word = t.name ++ "_first" then some (.bool (t.index == 0))
  else if word = t.name ++ "_last" then some (.bool (t.index == t.last))
  else none

def all (name : String) (items : List Value) : List Turn :=
  items.zipIdx.map fun (item, index) => ⟨name, item, index, items.length - 1⟩

end Turn

/- What has been told so far, and the calls that were made, the latest first. -/
structure Trace where
  text : String
  calls : List (Callable × List Value)

abbrev Telling := EStateM Failure Trace

/- Everything outside the tree that its meaning depends on. -/
structure Setting where
  host : Host
  registry : Registry
  vars : Value
  options : RenderOptions

namespace Setting

def accept : Except ValueFault α → Telling α
  | .ok a => pure a
  | .error fault => throw (.value fault)

def say (text : String) : Telling Unit := modify fun t => { t with text := t.text ++ text }

def call (x : Setting) (c : Callable) (args : List Value) : Telling (Except CallFault Value) :=
  modifyGet fun t => (x.host.apply c args, { t with calls := (c, args) :: t.calls })

/- The innermost turn that binds the first part of a path goes first. -/
def read (x : Setting) (turns : List Turn) (path : String) : Telling Value :=
  match Path.segments path with
  | [] => pure .missing
  | root :: rest =>
    match turns.findSome? (·.value? root) with
    | some v => accept (Path.walk v rest)
    | none => accept (outerValue x.host x.vars x.options path)

def evaluate (x : Setting) (turns : List Turn) (p : Position) (e : Expr) : Telling Value :=
  (e.eval ⟨x.read turns, x.registry.functions, x.call⟩).adaptExcept fun
    | .problem text => .template (.located p (.evaluation text e.text))
    | .passed f => f

def through (x : Setting) (p : Position) : List FilterCall → Value → Telling Value
  | [], v => pure v
  | f :: fs, v =>
    match x.registry.get? .filter f.name with
    | none => throw (Procedure.wrong p (.unknownFilter f.name))
    | some c => do
      match ← x.call c (v :: f.args) with
      | .ok v => through x p fs v
      | .error (.template e) => throw (.template e)
      | .error fault => throw (.template (.located p (.filterFailed f.name fault.text)))

mutual

def tell (x : Setting) (n : Node) (turns : List Turn) : Telling Unit :=
  match n with
  | .text _ s => say s
  | .output p text =>
    match Output.parse text with
    | .error fault => throw (Procedure.unreadable p text fault)
    | .ok o => do
      let v ← x.evaluate turns p o.expression
      let v ← x.through p o.filters v.plain
      say (← accept v.text)
  | .conditional p condition children otherwise =>
    match Expr.parse condition with
    | .error fault => throw (Procedure.unreadable p condition fault)
    | .ok e => do
      let v ← x.evaluate turns p e
      if v.isTruthy then tellAll x children turns else tellAll x otherwise turns
  | .loop p name collection children =>
    match Expr.parse collection with
    | .error fault => throw (Procedure.unreadable p collection fault)
    | .ok e => do
      let v ← x.evaluate turns p e
      (Turn.all name (v.items?.getD [])).forM fun turn => tellAll x children (turn :: turns)
  | .inclusion p name => throw (.template (.located p (.noLoader name)))
  | .root p _ => throw (Procedure.wrong p (.unknownNode "root"))
  | .foreign p kind _ => throw (Procedure.wrong p (.unknownNode kind))
termination_by structural n

def tellAll (x : Setting) (ns : List Node) (turns : List Turn) : Telling Unit :=
  match ns with
  | [] => pure ()
  | n :: ns => do
    tell x n turns
    tellAll x ns turns
termination_by structural ns

end

/- What a tree means. -/
def interpret (x : Setting) (tree : Node) : Telling Unit :=
  match tree with
  | .root _ children => x.tellAll children []
  | n => throw (.template (.of (.unknownRoot n.kind)))

end Setting
end Stencil
