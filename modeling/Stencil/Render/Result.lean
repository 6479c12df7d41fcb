import Stencil.Render.Exec
import Stencil.Tally
import Stencil.Text.Markup

/-! Results of renders, and what can be said about many of them. -/
namespace Stencil

/- A failed render has no output. `time` is in milliseconds. -/
structure RenderResult where
  output : String
  time : Binary64
  used : List String
  missing : List String
  failure : Option TemplateError
  deriving Repr

namespace RenderResult

def notStarted (e : TemplateError) : RenderResult := ⟨"", .zero, [], [], some e⟩

def succeeded (r : RenderResult) : Bool := r.failure.isNone

end RenderResult

namespace Template

def run (host : Host) (includer : Includer) (t : Template) (s : RunState) :
    Except Failure String × RunState :=
  let whole : Run Unit := do
    Run.execute host includer t
    Run.checkDeadline host
  match whole s with
  | .ok _ s =>
    let text := s.frame.output
    (.ok (if s.frame.options.escape.isOn then String.ofList (Text.escapeHtml text.toList) else text), s)
  | .error e s => (.error e, s)

def begin (host : Host) (vars : Value) (options : RenderOptions) (w : World) :
    Except ValueFault RunState × World :=
  let (now, w) := w.tick host
  ((Frame.start vars options now).map (⟨·, w⟩), w)

/- Renders a template. Errors of templates make a failed result; other faults end the render. -/
def render (host : Host) (includer : Includer) (t : Template) (vars : Value)
    (options : RenderOptions) (w : World) : Except ValueFault RenderResult × World :=
  match begin host vars options w with
  | (.error f, w) => (.error f, w)
  | (.ok s, _) =>
    let finish (s : RunState) (output : String) (failure : Option TemplateError) :=
      let (now, w) := s.world.tick host
      (Except.ok ⟨output, s.frame.elapsed now, s.frame.used, s.frame.missing, failure⟩, w)
    match t.run host includer s with
    | (.ok output, s) => finish s output none
    | (.error (.template e), s) => finish s "" (some e)
    | (.error (.value f), s) => (.error f, s.world)

def renderStrictly (host : Host) (includer : Includer) (t : Template) (vars : Value)
    (options : RenderOptions) (w : World) : Except Failure RenderResult × World :=
  match begin host vars options w with
  | (.error f, w) => (.error (.value f), w)
  | (.ok s, _) =>
    match t.run host includer s with
    | (.ok output, s) =>
      let (now, w) := s.world.tick host
      (.ok ⟨output, s.frame.elapsed now, s.frame.used, s.frame.missing, none⟩, w)
    | (.error e, s) => (.error e, s.world)

def chunks (size : Nat) (s : List Char) : List (List Char) :=
  if s.length ≤ size || size = 0 then (if s.isEmpty then [] else [s])
  else s.take size :: chunks size (s.drop size)
termination_by s.length
decreasing_by simp_all; omega

/- The output in chunks. A failed render is an error of its own. -/
def stream (size : Int) (r : RenderResult) : Except Failure (List String) :=
  match r.failure with
  | some e => .error (.template (.of (.streamFailed e.text e.code.text)))
  | none => .ok ((chunks size.toNat r.output.toList).map String.ofList)

/- The paths that a path leads through, itself the last of them: `a`, `a.b` and `a.b.c` for `a.b.c`. -/
def waypoints (path : String) : List String :=
  let parts := Text.pieces '.' path.toList
  (List.range parts.length).map
    (fun n => String.ofList (List.intercalate ['.'] (parts.take (n + 1))))

def isServed (names : List String) (path : String) : Bool := (waypoints path).any names.contains

/- `name` serves a path that it is, or that goes on behind it with a dot. -/
def serves (name path : String) : Bool :=
  path == name || (name.toList ++ ['.']).isPrefixOf path.toList

/- Whether the variables that a template reads are there: those that no available name serves, and the
available names that serve none. -/
structure Coverage where
  missing : List String
  extra : List String
  deriving DecidableEq, Repr

def Coverage.complete (c : Coverage) : Bool := c.missing.isEmpty

def coverage (dependencies available : List String) : Coverage :=
  let names := available.foldl (fun seen name => appendNew name seen) []
  ⟨dependencies.filter (fun path => !isServed names path),
    names.filter (fun name => !dependencies.any (serves name ·))⟩

end Template

structure RenderStatistics where
  total : Nat
  succeeded : Nat
  failed : Nat
  averageTime : Binary64
  used : List String
  commonMissing : List (String × Nat)
  deriving Repr

namespace RenderStatistics

def shownMissing : Nat := 10

def of (results : List RenderResult) : RenderStatistics :=
  let good := results.filter RenderResult.succeeded
  let sum := good.foldl (fun (sum : Binary64) r => sum.add r.time) .zero
  let counts := byCount (tally (results.flatMap (·.missing)))
  { total := results.length
    succeeded := good.length
    failed := results.length - good.length
    averageTime := if good.isEmpty then .zero else sum.divNat good.length
    used := (results.flatMap (·.used)).foldl (fun seen name => appendNew name seen) []
    commonMissing := counts.take shownMissing }

end RenderStatistics
end Stencil
