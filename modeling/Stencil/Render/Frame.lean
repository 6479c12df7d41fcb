import Stencil.Cache
import Stencil.Expr.Eval
import Stencil.Host
import Stencil.Markup.Node
import Stencil.Procedure.Compiler
import Stencil.Settings.Render

/-! The state of one render: the scopes of the loops that are open, the output so far, the variables
that were found and those that were not. -/
namespace Stencil

abbrev Scope := List (String × Value)

/- The innermost scope stands first. `handled` holds the values of paths that a handler was called
for. -/
structure Frame where
  vars : Value
  options : RenderOptions
  output : String
  scopes : List Scope
  used : List String
  missing : List String
  handled : List (String × Value)
  started : Binary64
  deadline : Option Binary64
  deriving Repr

/- A template that is ready to be rendered; `id` is the digest of its text. -/
structure Template where
  id : String
  tree : Node
  procedure : Procedure
  dependencies : List String
  deriving Repr

/- What outlives a render: how often the clock was read, what was called and with what, the latest
call first, and the compiled templates. -/
structure World where
  reads : Nat
  calls : List (Callable × List Value)
  cache : Cache Template
  deriving Repr

structure RunState where
  frame : Frame
  world : World
  deriving Repr

/- A step of a render. What was done before a failure stays done. -/
abbrev Run := EStateM Failure RunState

namespace World

def tick (host : Host) (w : World) : Binary64 × World :=
  (host.clock w.reads, { w with reads := w.reads + 1 })

def call (host : Host) (c : Callable) (args : List Value) (w : World) :
    Except CallFault Value × World :=
  (host.apply c args, { w with calls := (c, args) :: w.calls })

end World

namespace Frame

/- A new frame at a moment of the clock. Vars that hold nothing are as if there were none. -/
def start (vars : Value) (options : RenderOptions) (now : Binary64) : Except ValueFault Frame := do
  let deadline ←
    if options.timeout.isPositive then
      options.timeout.seconds.map (fun limit => some (now.add limit))
    else pure none
  return ⟨if vars.isTruthy then vars else .map [], options, "", [], [], [], [], now, deadline⟩

def elapsed (f : Frame) (now : Binary64) : Binary64 :=
  (now.sub f.started).mul (.ofRatio false 1000 1)

def bound? (f : Frame) (name : String) : Option Value := f.scopes.findSome? (·.lookup name)

/- The value of a path in the vars or, failing that, in the defaults: there the whole path as a
key goes first. -/
def raw (f : Frame) (path : String) : Except ValueFault Value := do
  let v ← Path.resolve f.vars path
  if v.isMissing then
    if ← Path.holds f.options.defaults path then Path.under f.options.defaults path
    else Path.resolve f.options.defaults path
  else return v

end Frame

namespace Run

def lift : Except ValueFault α → Run α
  | .ok x => pure x
  | .error f => throw (.value f)

def frame : Run Frame := return (← get).frame

def modifyFrame (f : Frame → Frame) : Run Unit := modify (fun s => { s with frame := f s.frame })

def now (host : Host) : Run Binary64 :=
  modifyGet (fun s => let (t, w) := s.world.tick host; (t, { s with world := w }))

def call (host : Host) (c : Callable) (args : List Value) : Run (Except CallFault Value) :=
  modifyGet (fun s => let (r, w) := s.world.call host c args; (r, { s with world := w }))

/- Fails if the time is up. The clock is read only if there is a limit. -/
def checkDeadline (host : Host) : Run Unit := do
  let f ← frame
  match f.deadline with
  | none => return
  | some deadline =>
    let t ← now host
    if deadline.lt t then
      throw (.template (.of (.timeout f.options.timeout.brief f.options.timeout.toValue)))

def callHandler (host : Host) (handlers : Value) (path : String) (v : Value) :
    Run (Except CallFault Value) := do
  match Path.under handlers path with
  | .ok (.callable c) => call host c [v]
  | .ok other => return .error (.other ("'" ++ other.fullTypeWord ++ "' object is not callable"))
  | .error fault => return .error (.value fault)

/- The value that a handler makes. A failure of it is an error only in strict mode; otherwise the value
stays as it is. -/
def handle (host : Host) (options : RenderOptions) (path : String) (v : Value) : Run Value := do
  match ← callHandler host options.handlers path v with
  | .ok v => return v
  | .error fault =>
    if options.strict.isOn then throw (.template (.of (.handlerFailed path fault.text))) else return v

/- The value of a path that no loop binds. The handler of a path is called once in a render. -/
def lookup (host : Host) (path : String) : Run Value := do
  let f ← frame
  let v ← lift (f.raw path)
  if v.isMissing then return v
  if !(← lift (Path.holds f.options.handlers path)) then return v
  match f.handled.lookup path with
  | some v => return v
  | none =>
    let v ← handle host f.options path v
    modifyFrame (fun f => { f with handled := f.handled ++ [(path, v)] })
    return v

def resolve (host : Host) (path : String) : Run Value := do
  match Path.segments path with
  | [] => return .missing
  | root :: rest =>
    match (← frame).bound? root with
    | some v => lift (Path.walk v rest)
    | none => lookup host path

/- Looks up the variables that a template reads before it runs. In strict mode the first missing one is
an error. -/
def require (host : Host) : List String → Run Unit
  | [] => return
  | path :: paths => do
    let v ← resolve host path
    if v.isMissing then
      modifyFrame (fun f => { f with missing := appendNew path f.missing })
      if (← frame).options.strict.isOn then throw (.template (.of (.undefined path [])))
    else
      modifyFrame (fun f => { f with used := appendNew path f.used })
    require host paths

def write (text : String) : Run Unit := modifyFrame (fun f => { f with output := f.output ++ text })

def pushScope (s : Scope) : Run Unit := modifyFrame (fun f => { f with scopes := s :: f.scopes })

def popScope : Run Unit := do
  match (← frame).scopes with
  | [] => throw (.value .noScope)
  | _ :: rest => modifyFrame (fun f => { f with scopes := rest })

/- Runs with a scope, which is closed afterwards whether the run fails or not. -/
def within (s : Scope) (body : Run Unit) : Run Unit := do
  pushScope s
  tryFinally body popScope

end Run
end Stencil
