import Stencil.Proofs.Parting

/-! Strict mode. A strict render goes hand in hand with a lenient one up to the first dependency that is
missing. There it fails; the lenient one goes on and keeps the path as the first of those it misses. -/
namespace Stencil

def RenderOptions.strictly (options : RenderOptions) (strict : Switch) : RenderOptions :=
  { options with strict := strict }

@[simp] theorem RenderOptions.strictlyDefaults (options : RenderOptions) (strict : Switch) :
    (options.strictly strict).defaults = options.defaults := rfl

@[simp] theorem RenderOptions.strictlyHandlers (options : RenderOptions) (strict : Switch) :
    (options.strictly strict).handlers = options.handlers := rfl

def RunState.strictly (s : RunState) (strict : Switch) : RunState :=
  { s with frame := { s.frame with options := s.frame.options.strictly strict } }

@[simp] theorem RunState.strictlyVars (s : RunState) (strict : Switch) :
    (s.strictly strict).frame.vars = s.frame.vars := rfl

@[simp] theorem RunState.strictlyOptions (s : RunState) (strict : Switch) :
    (s.strictly strict).frame.options = s.frame.options.strictly strict := rfl

@[simp] theorem RunState.strictlyHandled (s : RunState) (strict : Switch) :
    (s.strictly strict).frame.handled = s.frame.handled := rfl

/- Every handler can be called and gives a value. -/
def Sure (host : Host) (handlers : Value) : Prop :=
  ∀ path v, Path.holds handlers path = .ok true →
    ∃ c w, Path.under handlers path = .ok (.callable c) ∧ host.apply c [v] = .ok w

/- What a lookup does with a handler that gives a value: it is called, and the value is kept. -/
theorem Run.handleSure {host : Host} (options : RenderOptions) {path : String} {c : Callable} {v w : Value}
    (handler : Path.under options.handlers path = .ok (.callable c)) (applied : host.apply c [v] = .ok w)
    (s : RunState) :
    (do
      let w ← handle host options path v
      modifyFrame (fun f => { f with handled := f.handled ++ [(path, w)] })
      return w : Run Value) s =
      .ok w (RunState.handling path w { s with world := (s.world.call host c [v]).2 }) := by
  simp only [handle, callHandler, handler, call, bind, EStateM.bind, modifyGet, MonadStateOf.modifyGet,
    EStateM.modifyGet, World.call, applied]
  rfl

/- The frame of a lenient render without a time limit, as long as nothing was missing. -/
structure Frame.Calm (host : Host) (scopes : List Scope) (f : Frame) : Prop where
  scopes : f.scopes = scopes
  lenient : f.options.strict.isOn = false
  nothing : f.missing = []
  unlimited : f.deadline = none
  sure : Sure host f.options.handlers

theorem Frame.Calm.keep {host : Host} {scopes : List Scope} {f g : Frame} (calm : f.Calm host scopes)
    (open' : g.scopes = f.scopes) (options : g.options = f.options) (missing : g.missing = f.missing)
    (deadline : g.deadline = f.deadline) : g.Calm host scopes where
  scopes := open'.trans calm.scopes
  lenient := by rw [options, calm.lenient]
  nothing := missing.trans calm.nothing
  unlimited := deadline.trans calm.unlimited
  sure := by rw [options]; exact calm.sure

/- A strict state beside a lenient one. -/
structure Beside (host : Host) (strict : Switch) (scopes : List Scope) (s t : RunState) : Prop where
  same : s = t.strictly strict
  calm : t.frame.Calm host scopes

namespace Beside

variable {host : Host} {strict : Switch} {scopes : List Scope}

theorem entering {s t : RunState} (scope : Scope) (beside : Beside host strict scopes s t) :
    Beside host strict (scope :: scopes) (s.entering scope) (t.entering scope) := by
  obtain ⟨rfl, shut, lenient, nothing, unlimited, sure⟩ := beside
  exact ⟨rfl, congrArg (scope :: ·) shut, lenient, nothing, unlimited, sure⟩

theorem leaving {scope : Scope} {s t : RunState} (beside : Beside host strict (scope :: scopes) s t) :
    Beside host strict scopes s.leaving t.leaving := by
  obtain ⟨rfl, shut, lenient, nothing, unlimited, sure⟩ := beside
  exact ⟨rfl, congrArg List.tail shut, lenient, nothing, unlimited, sure⟩

theorem deadlineCoupled :
    Coupled (Beside host strict scopes) (Run.checkDeadline host) (Run.checkDeadline host) := by
  intro s t beside
  obtain ⟨rfl, calm⟩ := beside
  have passed : Run.checkDeadline host (t.strictly strict) = .ok () (t.strictly strict) :=
    Run.checkDeadlineUnlimited host calm.unlimited
  rw [passed, Run.checkDeadlineUnlimited host calm.unlimited]
  exact .ok () ⟨rfl, calm⟩

theorem callCoupled (c : Callable) (args : List Value) :
    Coupled (Beside host strict scopes) (Run.call host c args) (Run.call host c args) := by
  intro s t beside
  obtain ⟨rfl, calm⟩ := beside
  exact .ok _ ⟨rfl, calm⟩

theorem lookupCoupled (path : String) :
    Coupled (Beside host strict scopes) (Run.lookup host path) (Run.lookup host path) := by
  intro s t beside
  obtain ⟨rfl, calm⟩ := beside
  simp only [Run.lookupEnds, RunState.strictlyVars, RunState.strictlyOptions, RunState.strictlyHandled,
    RenderOptions.strictlyDefaults, RenderOptions.strictlyHandlers]
  cases rawValue t.frame.vars t.frame.options.defaults path with
  | error fault => exact .error _ ⟨rfl, calm⟩
  | ok v =>
    dsimp only
    split
    · exact .ok v ⟨rfl, calm⟩
    · cases held : Path.holds t.frame.options.handlers path with
      | error fault => exact .error _ ⟨rfl, calm⟩
      | ok holds =>
        cases holds with
        | false => exact .ok v ⟨rfl, calm⟩
        | true =>
          cases t.frame.handled.lookup path with
          | some w => exact .ok w ⟨rfl, calm⟩
          | none =>
            obtain ⟨c, w, handler, applied⟩ := calm.sure path v held
            dsimp only
            rw [Run.handleSure (t.frame.options.strictly strict) handler applied,
              Run.handleSure t.frame.options handler applied]
            exact .ok w ⟨rfl, calm.keep rfl rfl rfl rfl⟩

theorem reading : Reading host (fun _ => True) (Beside host strict) where
  scopes beside := by
    obtain ⟨rfl, calm⟩ := beside
    exact ⟨calm.scopes, calm.scopes⟩
  entering scope beside := beside.entering scope
  leaving beside := beside.leaving
  writing text beside := by
    obtain ⟨rfl, calm⟩ := beside
    exact ⟨rfl, calm.keep rfl rfl rfl rfl⟩
  lookup scopes path _ := lookupCoupled path
  call scopes c args := callCoupled c args

theorem loadCoupled {e : Engine} (text : String) :
    Coupled (Beside host strict scopes) (e.load text) (e.load text) := by
  intro s t beside
  obtain ⟨rfl, calm⟩ := beside
  have world : (t.strictly strict).world = t.world := rfl
  rw [Engine.loadEnds, Engine.loadEnds, world]
  cases (e.process text true t.world.cache).1 with
  | ok p => exact .ok _ ⟨rfl, calm⟩
  | error fault => exact .error _ ⟨rfl, calm⟩

end Beside

/- The failure of a strict render at the one path that it missed. -/
def Undefined (e : Failure) (missing : List String) : Prop :=
  ∃ path, e = .template (.of (.undefined path [])) ∧ missing = [path]

/- In strict mode the first path that is missing ends the render. -/
theorem Run.requireStops {host : Host} {path : String} {paths : List String} {s s' : RunState} {v : Value}
    (on : s'.frame.options.strict.isOn = true) (resolved : resolve host path s = .ok v s')
    (missing : v.isMissing = true) :
    require host (path :: paths) s = .error (.template (.of (.undefined path []))) (s'.lacking path) := by
  simp only [require, bind, EStateM.bind, resolved, missing, if_true]
  exact congrFun (if_pos on) (s'.lacking path)

theorem Run.requireGoes {host : Host} {path : String} {paths : List String} {s s' : RunState} {v : Value}
    (resolved : resolve host path s = .ok v s') (found : v.isMissing = false) :
    require host (path :: paths) s = require host paths (s'.finding path) := by
  simp only [require, bind, EStateM.bind, resolved, found, Bool.false_eq_true, if_false]
  rfl

namespace Parting

variable {host : Host} {strict : Switch} {scopes : List Scope}

/- The dependencies of a template are where a strict render and a lenient one part. -/
theorem requireParts (on : strict.isOn = true) (paths : List String) :
    Parting (Beside host strict scopes) (Apart Undefined scopes) (Run.require host paths) (Run.require host paths) := by
  induction paths with
  | nil => exact .ofCoupled (.ofPure ())
  | cons path paths ih =>
    intro s t beside
    have ends := Beside.reading.resolves path s t beside
    generalize left : Run.resolve host path s = x at ends
    generalize right : Run.resolve host path t = y at ends
    cases ends with
    | error e after =>
      simp only [Run.require, Bind.bind, EStateM.bind, left, right]
      exact .together (.error e after)
    | ok v after =>
      obtain ⟨rfl, calm⟩ := after
      cases missing : v.isMissing with
      | false =>
        rw [Run.requireGoes left missing, Run.requireGoes right missing]
        exact ih _ _ ⟨rfl, calm.keep rfl rfl rfl rfl⟩
      | true =>
        rw [Run.requireStops on left missing, Run.requireStep calm.lenient right, if_pos missing]
        refine .apart (Apart.lasts (fun used lacked => Behind.upkeep.keeping.requireUpholds paths) _ _ _ ?_)
        refine ⟨calm.scopes, ⟨path, rfl, ?_⟩, calm.scopes, List.prefix_refl _, List.prefix_refl _⟩
        simp [RunState.lacking, RunState.strictly, appendNew, calm.nothing]

theorem racing (on : strict.isOn = true) : Racing host Undefined (Beside host strict) where
  toReading := Beside.reading
  deadline _ := .ofCoupled Beside.deadlineCoupled
  require _ := requireParts on

abbrev Includes (host : Host) (strict : Switch) (includer : Includer) : Prop :=
  Racing.Includes host Undefined (Beside host strict) includer

theorem includes {e : Engine} (on : strict.isOn = true) : Includes e.host strict e.includer :=
  (racing on).includes fun text _ => Beside.loadCoupled text

theorem noIncludes : Includes host strict none := Racing.noIncludes

end Parting

/- What strict mode makes of a lenient result `r`. If nothing was missing the result is the same; if not, it is a
failure at the first path that was missing. -/
def StrictOutcome (r : RenderResult) (after : World) (strict : Except ValueFault RenderResult × World) : Prop :=
  match r.missing with
  | [] => strict = (.ok r, after)
  | path :: _ => ∃ r' after' fault, strict = (.ok r', after') ∧ r'.output = "" ∧ r'.missing = [path] ∧
      r'.used <+: r.used ∧ r'.failure = some fault ∧ fault.code = .undefined ∧
      fault.text = "Undefined variable: " ++ path

namespace StrictOutcome

variable {host : Host} {r : RenderResult} {after : World}

theorem ofSame {strict : Except ValueFault RenderResult × World} (nothing : r.missing = [])
    (same : strict = (.ok r, after)) : StrictOutcome r after strict := by
  rw [StrictOutcome, nothing]
  exact same

theorem ofApart {e : Failure} {s t : RunState} (apart : Apart Undefined [] e s t)
    (missing : r.missing = t.frame.missing) (used : r.used = t.frame.used) :
    StrictOutcome r after (Template.concluded host (.error e s)) := by
  obtain ⟨-, ⟨path, rfl, only⟩, -, found, rest, whole⟩ := apart
  have first : r.missing = path :: rest := by rw [missing, ← whole, only, List.singleton_append]
  rw [StrictOutcome, first]
  exact ⟨_, _, _, rfl, rfl, only, by rw [used]; exact found, rfl, rfl, rfl⟩

end StrictOutcome

theorem Template.strictOutcome {host : Host} {includer : Includer} {strict : Switch}
    (includes : Parting.Includes host strict includer) (on : strict.isOn = true) {options : RenderOptions}
    (lenient : options.strict.isOn = false) (unlimited : options.timeout.isPositive = false)
    (sure : Sure host options.handlers) (t : Template) (vars : Value) {w after : World} {r : RenderResult}
    (ended : t.render host includer vars options w = (.ok r, after)) :
    StrictOutcome r after (t.render host includer vars (options.strictly strict) w) := by
  have begun := Frame.startUnlimited unlimited vars (w.tick host).1
  have begun' := @Frame.startUnlimited (options.strictly strict) unlimited vars (w.tick host).1
  rw [renderEnds begun] at ended
  rw [renderEnds begun']
  have beside : Beside host strict []
      ⟨⟨givenVars vars, options.strictly strict, "", [], [], [], [], (w.tick host).1, none⟩, (w.tick host).2⟩
      ⟨⟨givenVars vars, options, "", [], [], [], [], (w.tick host).1, none⟩, (w.tick host).2⟩ :=
    ⟨rfl, rfl, lenient, rfl, rfl, sure⟩
  have parts := (Parting.racing on).runParts includes t _ _ beside
  generalize (do Run.execute host includer t; Run.checkDeadline host : Run Unit)
    ⟨⟨givenVars vars, options.strictly strict, _, _, _, _, _, _, _⟩, _⟩ = x at parts ⊢
  generalize (do Run.execute host includer t; Run.checkDeadline host : Run Unit)
    ⟨⟨givenVars vars, options, _, _, _, _, _, _, _⟩, _⟩ = y at parts ended
  cases parts with
  | together ends =>
    cases ends with
    | ok a beside =>
      obtain ⟨rfl, calm⟩ := beside
      cases ended
      exact .ofSame calm.nothing rfl
    | error e beside =>
      obtain ⟨rfl, calm⟩ := beside
      cases e with
      | template fault =>
        cases ended
        exact .ofSame calm.nothing rfl
      | value fault => cases ended
  | apart parted =>
    cases parted with
    | ok kept =>
      cases ended
      exact .ofApart kept rfl rfl
    | @error f _ _ kept =>
      cases f with
      | template fault =>
        cases ended
        exact .ofApart kept rfl rfl
      | value fault => cases ended

/- A text that does not compile has the same result in every mode, without anything missing. -/
theorem Engine.strictOutcome {e : Engine} {strict : Switch} (on : strict.isOn = true)
    {options : RenderOptions} (lenient : options.strict.isOn = false)
    (unlimited : options.timeout.isPositive = false) (sure : Sure e.host options.handlers) {text : String}
    {vars : Value} {w after : World} {r : RenderResult}
    (ended : e.render text vars options w = (.ok r, after)) :
    StrictOutcome r after (e.render text vars (options.strictly strict) w) := by
  rw [Engine.render] at ended ⊢
  split at ended
  · cases ended
    exact .ofSame rfl rfl
  · exact Template.strictOutcome (Parting.includes on) on lenient unlimited sure _ vars ended

/- A strict render differs from a lenient one only in that it fails at the first dependency that is missing, be
it of a text or of a template that was compiled before, with or without templates to include. -/
theorem strictFailsFirst {e : Engine} {strict : Switch} (on : strict.isOn = true) {options : RenderOptions}
    (lenient : options.strict.isOn = false) (unlimited : options.timeout.isPositive = false)
    (sure : Sure e.host options.handlers) (vars : Value) (w after : World) (r : RenderResult) :
    (∀ text, e.render text vars options w = (.ok r, after) →
      StrictOutcome r after (e.render text vars (options.strictly strict) w)) ∧
    ∀ (t : Template) (includer : Includer), includer = none ∨ includer = e.includer →
      t.render e.host includer vars options w = (.ok r, after) →
        StrictOutcome r after (t.render e.host includer vars (options.strictly strict) w) := by
  refine ⟨fun text => Engine.strictOutcome on lenient unlimited sure, ?_⟩
  rintro t includer (rfl | rfl) ended
  · exact Template.strictOutcome Parting.noIncludes on lenient unlimited sure t vars ended
  · exact Template.strictOutcome (Parting.includes on) on lenient unlimited sure t vars ended

/- A template that includes one with a dependency. -/
def sampleWhole : Template := ⟨"", .root .start [], ⟨[.inclusion .start "part"], [], 0⟩, []⟩

def samplePart : Engine := ⟨.standard, .empty, some fun _ => .ok (some "$\x7by\x7d"), .still⟩

def sampleFrame (missing : List String) : Frame := ⟨.map [], .unlimited, "", [], [], missing, [], .zero, none⟩

set_option maxRecDepth 4000 in
theorem samplePartBuilt : ∃ p, samplePart.build "$\x7by\x7d" = .ok p ∧ p.template =
    ⟨Digest.sha1 "$\x7by\x7d", .root .start [.output ⟨1, 1, 0⟩ "y"],
      ⟨[.emit ⟨1, 1, 0⟩ "y" (.path "y") []], [], 0⟩, ["y"]⟩ := by
  have tokens : Token.scan .standard "$\x7by\x7d" =
      .ok [⟨.output, "y", ⟨1, 1, 0⟩, 4⟩, ⟨.eof, "", ⟨1, 5, 4⟩, 4⟩] := by cbv
  have item : Output.parse "y" = .ok ⟨"y", .path "y", []⟩ := by cbv
  have read : Node.ofTokens .standard [⟨.output, "y", ⟨1, 1, 0⟩, 4⟩, ⟨.eof, "", ⟨1, 5, 4⟩, 4⟩] =
      .ok (.root .start [.output ⟨1, 1, 0⟩ "y"]) := by cbv
  have compiled : Procedure.compile .empty (.root .start [.output ⟨1, 1, 0⟩ "y"]) =
      .ok ⟨⟨[.emit ⟨1, 1, 0⟩ "y" (.path "y") []], [], 0⟩, ["y"]⟩ := by
    simp only [Procedure.compile, Procedure.compileNodes, Procedure.compileNode, item]
    rfl
  exact ⟨_, Engine.buildOk.mpr ⟨_, _, _, tokens, read, compiled, rfl⟩, rfl⟩

theorem samplePartIncluded : ∃ w, samplePart.inclusion 10 "part" ⟨sampleFrame [], (World.fresh.tick .still).2⟩ =
    .ok () ⟨sampleFrame ["y"], w⟩ := by
  obtain ⟨p, built, template⟩ := samplePartBuilt
  have made : (samplePart.process "$\x7by\x7d" true World.fresh.cache).1 = .ok p := by
    simp [Engine.process, World.fresh, Cache.get, Cache.empty, Cache.find?, built]
  have loaded := samplePart.loadEnds "$\x7by\x7d" ⟨sampleFrame [], (World.fresh.tick .still).2⟩
  have same : (World.fresh.tick .still).2.cache = World.fresh.cache := rfl
  simp only [same, made, template] at loaded
  generalize (samplePart.process "$\x7by\x7d" true World.fresh.cache).2 = cache at loaded
  have found : samplePart.source "part" = .ok "$\x7by\x7d" := rfl
  refine ⟨⟨1, [], cache⟩, ?_⟩
  simp only [Engine.inclusion, found, bind, EStateM.bind, loaded]
  rfl

theorem strictFailsFirstIncluded : ∃ r after r' after',
    sampleWhole.render .still samplePart.includer .null .unlimited .fresh = (.ok r, after) ∧
    r.missing = ["y"] ∧
    sampleWhole.render .still samplePart.includer .null (RenderOptions.unlimited.strictly (.ofBool true)) .fresh =
      (.ok r', after') ∧ r'.output = "" ∧ r'.missing = ["y"] := by
  obtain ⟨w, included⟩ := samplePartIncluded
  have ran : (do Run.execute .still samplePart.includer sampleWhole; Run.checkDeadline .still : Run Unit)
      ⟨sampleFrame [], (World.fresh.tick .still).2⟩ =
        EStateM.bind (EStateM.bind (samplePart.inclusion 10 "part") fun _ => pure ())
          (fun _ => Run.checkDeadline .still) ⟨sampleFrame [], (World.fresh.tick .still).2⟩ := rfl
  simp only [EStateM.bind, included] at ran
  obtain ⟨r, after, ended, missing⟩ : ∃ r after,
      sampleWhole.render .still samplePart.includer .null .unlimited .fresh = (.ok r, after) ∧
        r.missing = ["y"] := by
    rw [Template.renderEnds (Frame.startUnlimited (by decide) _ _)]
    exact ⟨_, _, congrArg (Template.concluded .still) ran, rfl⟩
  have unlimited : RenderOptions.unlimited.timeout.isPositive = false := by decide
  have sure : Sure samplePart.host RenderOptions.unlimited.handlers := by
    intro path v held
    cases held
  have outcome := (@strictFailsFirst samplePart (.ofBool true) rfl _ rfl unlimited sure _ _ _ _).2
    sampleWhole _ (.inr rfl) ended
  rw [StrictOutcome, missing] at outcome
  obtain ⟨r', after', fault, strict, output, missing', -⟩ := outcome
  exact ⟨r, after, r', after', ended, missing, strict, output, missing'⟩

end Stencil
