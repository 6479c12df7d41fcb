import Stencil.Proofs.Nesting
import Stencil.Proofs.Upkeep

/-! Watching a render. Whenever it calls something, or reads a path that no loop binds, this is noted down; the render
itself does what it does unwatched. The steps of both are laid side by side. -/
namespace Stencil

variable {ε ε' α β : Type}

/- What there is to see: that the handler of a path was called, with what it was given, what it answered and the scopes
that were open; that a filter or a function was called; that a path was read which no loop binds. -/
inductive Sight where
  | handled (path : String) (c : Callable) (given : Value) (answer : Except CallFault Value) (scopes : List Scope)
  | called (c : Callable) (args : List Value)
  | read (path : String) (v : Value)

/- What comes of a call of a handler. -/
def Sight.kept (given : Value) : Except CallFault Value → Value
  | .ok v => v
  | .error _ => given

/- A render and what was seen of it, the latest first. -/
structure Watched where
  run : RunState
  log : List Sight

abbrev Watching := EStateM Failure Watched

namespace Watched

def seeing (x : Sight) (w : Watched) : Watched := { w with log := x :: w.log }

def moved (w : Watched) (s : RunState) : Watched := { w with run := s }

def carry (m : Run α) : Watching α := fun w =>
  match m w.run with
  | .ok a s => .ok a (w.moved s)
  | .error e s => .error e (w.moved s)

def carrier : Carrier Watched := ⟨carry⟩

/- The call of a filter or of a function. -/
def call (host : Host) (c : Callable) (args : List Value) : Watching (Except CallFault Value) := do
  modify (seeing (.called c args))
  carry (Run.call host c args)

/- What is no callable is not called. -/
def callHandler (host : Host) (handlers : Value) (path : String) (v : Value) : Watching (Except CallFault Value) := do
  let answer ← carry (Run.callHandler host handlers path v)
  match Path.under handlers path with
  | .ok (.callable c) => modify fun w => w.seeing (.handled path c v answer w.run.frame.scopes)
  | _ => pure ()
  return answer

def handle (host : Host) (options : RenderOptions) (path : String) (v : Value) : Watching Value := do
  match ← callHandler host options.handlers path v with
  | .ok v => return v
  | .error fault =>
    if options.strict.isOn then throw (.template (.of (.handlerFailed path fault.text))) else return v

def find (host : Host) (path : String) : Watching Value := do
  let f ← carry Run.frame
  let v ← carry (Run.lift (f.raw path))
  if v.isMissing then return v
  if !(← carry (Run.lift (Path.holds f.options.handlers path))) then return v
  match f.handled.lookup path with
  | some v => return v
  | none =>
    let v ← handle host f.options path v
    carry (Run.modifyFrame fun f => { f with handled := f.handled ++ [(path, v)] })
    return v

/- The value of a path that no loop binds. -/
def lookup (host : Host) (path : String) : Watching Value := do
  let v ← find host path
  modify (seeing (.read path v))
  return v

def resolve (host : Host) (path : String) : Watching Value := do
  match Path.segments path with
  | [] => return .missing
  | root :: rest =>
    match (← carry Run.frame).bound? root with
    | some v => carry (Run.lift (Path.walk v rest))
    | none => lookup host path

def require (host : Host) : List String → Watching Unit
  | [] => return
  | path :: paths => do
    let v ← resolve host path
    if v.isMissing then
      carry (Run.modifyFrame fun f => { f with missing := appendNew path f.missing })
      if (← carry Run.frame).options.strict.isOn then throw (.template (.of (.undefined path [])))
    else
      carry (Run.modifyFrame fun f => { f with used := appendNew path f.used })
    require host paths

def machine (host : Host) (functions : List (String × Callable)) : Expr.Machine Watched :=
  ⟨resolve host, functions, call host⟩

def evaluate (host : Host) (functions : List (String × Callable)) (p : Position) (e : Expr) : Watching Value :=
  (e.eval (machine host functions)).adaptExcept fun
    | .problem text => .template (.located p (.evaluation text e.text))
    | .passed f => f

def applyFilters (host : Host) (p : Position) : List BoundFilter → Value → Watching Value
  | [], v => return v
  | f :: fs, v => do
    match ← call host f.callable (v :: f.args) with
    | .ok v => applyFilters host p fs v
    | .error (.template e) => throw (.template e)
    | .error fault => throw (.template (.located p (.filterFailed f.name fault.text)))

abbrev Hook := Option (String → Watching Unit)

mutual

def exec (host : Host) (hook : Hook) (functions : List (String × Callable)) (i : Instruction) :
    Watching Unit :=
  match i with
  | .emit p _ e filters => do
    let v ← evaluate host functions p e
    let v ← applyFilters host p filters v.plain
    carry (Run.write (← carry (Run.lift v.text)))
  | .branch p condition thenPart otherwise => do
    let v ← evaluate host functions p condition
    if v.isTruthy then execAll host hook functions thenPart
    else execAll host hook functions otherwise
  | .iterate p name collection body => do
    let v ← evaluate host functions p collection
    let items := v.items?.getD []
    carrier.eachItem host name (execAll host hook functions body) (items.length - 1) 0 items
  | .inclusion p name =>
    match hook with
    | none => throw (.template (.located p (.noLoader name)))
    | some run => run name
  | i => carry (Run.exec host none functions i)
termination_by structural i

def execAll (host : Host) (hook : Hook) (functions : List (String × Callable)) (is : List Instruction) :
    Watching Unit :=
  match is with
  | [] => return
  | i :: is => do
    carry (Run.checkDeadline host)
    exec host hook functions i
    execAll host hook functions is
termination_by structural is

end

def execute (host : Host) (hook : Hook) (t : Template) : Watching Unit := do
  require host t.dependencies
  execAll host hook t.procedure.functions t.procedure.instructions

def inclusion (e : Engine) : Nat → String → Watching Unit
  | 0, name => throw (.template (.of (.tooManyIncludes e.settings.includeDepth name)))
  | remaining + 1, name => do
    match e.source name with
    | .error fault => throw (.template fault)
    | .ok text =>
      let t ← carry (e.load text)
      execute e.host (some (inclusion e remaining)) t

def hook (e : Engine) : Hook := some (inclusion e e.settings.includeDepth.toNat)

/- What a watched run ends with, and the same as it looks unwatched. -/
def reached : EStateM.Result Failure Watched Unit → Watched
  | .ok _ w | .error _ w => w

def forgotten : EStateM.Result Failure Watched Unit → EStateM.Result Failure RunState Unit
  | .ok a w => .ok a w.run
  | .error e w => .error e w.run

end Watched

/- A watched step beside the step itself: they end alike. If it succeeds, its value and what it has come to are as
described; if it fails, what it has come to is. -/
inductive Shows (P E : Watched → Prop) (V : α → Prop) :
    EStateM.Result ε Watched α → EStateM.Result ε RunState α → Prop where
  | ok {a w} (holds : V a) (kept : P w) : Shows P E V (.ok a w) (.ok a w.run)
  | error {e w} (left : E w) : Shows P E V (.error e w) (.error e w.run)

def Mirrors (P E : Watched → Prop) (V : α → Prop) (m : EStateM ε Watched α) (n : EStateM ε RunState α) : Prop :=
  ∀ w, P w → Shows P E V (m w) (n w.run)

namespace Mirrors

variable {P E : Watched → Prop} {V : α → Prop} {U : β → Prop}

theorem ofPure {a : α} (holds : V a) : Mirrors P E V (pure a : EStateM ε Watched α) (pure a) :=
  fun _ kept => .ok holds kept

theorem ofThrow (fails : ∀ w, P w → E w) (e : ε) : Mirrors P E V (throw e : EStateM ε Watched α) (throw e) :=
  fun w kept => .error (fails w kept)

theorem bind {m : EStateM ε Watched α} {n : EStateM ε RunState α} {f : α → EStateM ε Watched β}
    {g : α → EStateM ε RunState β} (first : Mirrors P E V m n) (next : ∀ a, V a → Mirrors P E U (f a) (g a)) :
    Mirrors P E U (m >>= f) (n >>= g) := by
  intro w before
  have beside := first w before
  simp only [Bind.bind, EStateM.bind]
  generalize m w = x at beside ⊢
  generalize n w.run = y at beside ⊢
  cases beside with
  | ok holds kept => exact next _ holds _ kept
  | error left => exact .error left

theorem adaptExcept {m : EStateM ε Watched α} {n : EStateM ε RunState α} (f : ε → ε') (inner : Mirrors P E V m n) :
    Mirrors P E V (m.adaptExcept f) (n.adaptExcept f) := by
  intro w before
  have beside := inner w before
  simp only [EStateM.adaptExcept]
  generalize m w = x at beside ⊢
  generalize n w.run = y at beside ⊢
  cases beside with
  | ok holds kept => exact .ok holds kept
  | error left => exact .error left

end Mirrors

namespace Watched

/- After the handler of a path was called. -/
def handling (host : Host) (path : String) (c : Callable) (v : Value) (w : Watched) : Watched :=
  (w.moved { w.run with world := (w.run.world.call host c [v]).2 }).seeing
    (.handled path c v (host.apply c [v]) w.run.frame.scopes)

/- After the value of a path was noted. -/
def noting (path : String) (v : Value) (w : Watched) : Watched := w.moved (w.run.handling path v)

variable {host : Host} {options : RenderOptions} {path : String} {v : Value} {w : Watched}

theorem handleCalled {c : Callable} (found : Path.under options.handlers path = .ok (.callable c)) :
    Shows (· = w.handling host path c v) (· = w.handling host path c v) (· = Sight.kept v (host.apply c [v]))
      (Watched.handle host options path v w) (Run.handle host options path v w.run) := by
  have called : callHandler host options.handlers path v w =
      .ok (host.apply c [v]) (w.handling host path c v) := by
    simp only [callHandler, Run.callHandler, found]
    rfl
  have called' : Run.callHandler host options.handlers path v w.run =
      .ok (host.apply c [v]) (w.handling host path c v).run := by
    simp only [Run.callHandler, found]
    rfl
  simp only [handle, Run.handle, bind, EStateM.bind, called, called']
  cases host.apply c [v] with
  | ok u => exact .ok rfl rfl
  | error fault =>
    dsimp only
    split
    · exact .error rfl
    · exact .ok rfl rfl

theorem handleUncalled (unfound : ∀ c, Path.under options.handlers path ≠ .ok (.callable c)) :
    Shows (· = w) (· = w) (· = v) (Watched.handle host options path v w) (Run.handle host options path v w.run) := by
  obtain ⟨fault, called, called'⟩ : ∃ fault, callHandler host options.handlers path v w = .ok (.error fault) w ∧
      Run.callHandler host options.handlers path v w.run = .ok (.error fault) w.run := by
    simp only [callHandler, Run.callHandler]
    cases found : Path.under options.handlers path with
    | error fault => exact ⟨_, rfl, rfl⟩
    | ok u =>
      cases u with
      | callable c => exact absurd found (unfound c)
      | _ => exact ⟨_, rfl, rfl⟩
  simp only [handle, Run.handle, bind, EStateM.bind, called, called']
  split
  · exact .error rfl
  · exact .ok rfl rfl

theorem findEnds (host : Host) (path : String) (w : Watched) :
    find host path w =
      match rawValue w.run.frame.vars w.run.frame.options.defaults path with
      | .error e => .error (.value e) w
      | .ok v =>
        if v.isMissing then .ok v w
        else match Path.holds w.run.frame.options.handlers path with
          | .error e => .error (.value e) w
          | .ok false => .ok v w
          | .ok true =>
            match w.run.frame.handled.lookup path with
            | some u => .ok u w
            | none => (do
                let u ← handle host w.run.frame.options path v
                carry (Run.modifyFrame fun f => { f with handled := f.handled ++ [(path, u)] })
                return u : Watching Value) w := by
  simp only [find, carry, Run.frame, bind, EStateM.bind, get, getThe, MonadStateOf.get, EStateM.get, pure,
    EStateM.pure]
  have same : w.run.frame.raw path = rawValue w.run.frame.vars w.run.frame.options.defaults path := rfl
  rw [same]
  cases rawValue w.run.frame.vars w.run.frame.options.defaults path with
  | error e => rfl
  | ok v =>
    simp only [Run.lift, pure, EStateM.pure]
    split
    · rfl
    · cases Path.holds w.run.frame.options.handlers path with
      | error e => rfl
      | ok held =>
        cases held with
        | false => rfl
        | true => cases w.run.frame.handled.lookup path <;> rfl

/- A path that no loop binds is read: it has no handler, or a value was noted for it, or one is noted now. -/
theorem lookupMirrors {P E : Watched → Prop} {V : Value → Prop} (fails : ∀ w, P w → E w)
    (plain : ∀ w v, P w → rawValue w.run.frame.vars w.run.frame.options.defaults path = .ok v →
      v.isMissing = true ∨ Path.holds w.run.frame.options.handlers path = .ok false →
      V v ∧ P (w.seeing (.read path v)))
    (again : ∀ w u, P w → w.run.frame.handled.lookup path = some u → V u ∧ P (w.seeing (.read path u)))
    (called : ∀ w v c, P w → rawValue w.run.frame.vars w.run.frame.options.defaults path = .ok v →
      v.isMissing = false → w.run.frame.handled.lookup path = none →
      Path.under w.run.frame.options.handlers path = .ok (.callable c) →
      E (w.handling host path c v) ∧ V (Sight.kept v (host.apply c [v])) ∧
        P (((w.handling host path c v).noting path (Sight.kept v (host.apply c [v]))).seeing
          (.read path (Sight.kept v (host.apply c [v])))))
    (uncalled : ∀ w v, P w → rawValue w.run.frame.vars w.run.frame.options.defaults path = .ok v →
      v.isMissing = false → w.run.frame.handled.lookup path = none →
      (∀ c, Path.under w.run.frame.options.handlers path ≠ .ok (.callable c)) →
      V v ∧ P ((w.noting path v).seeing (.read path v))) :
    Mirrors P E V (lookup host path) (Run.lookup host path) := by
  intro w before
  simp only [lookup, bind, EStateM.bind, findEnds, Run.lookupEnds]
  cases raw : rawValue w.run.frame.vars w.run.frame.options.defaults path with
  | error f => exact .error (fails w before)
  | ok v =>
    dsimp only
    cases absent : v.isMissing with
    | true =>
      obtain ⟨holds, after⟩ := plain w v before raw (.inl absent)
      exact .ok holds after
    | false =>
      simp only [Bool.false_eq_true, if_false]
      cases has : Path.holds w.run.frame.options.handlers path with
      | error f => exact .error (fails w before)
      | ok held =>
        cases held with
        | false =>
          obtain ⟨holds, after⟩ := plain w v before raw (.inr has)
          exact .ok holds after
        | true =>
          cases made : w.run.frame.handled.lookup path with
          | some u =>
            obtain ⟨holds, after⟩ := again w u before made
            exact .ok holds after
          | none =>
            by_cases found : ∃ c, Path.under w.run.frame.options.handlers path = .ok (.callable c)
            · obtain ⟨c, found⟩ := found
              obtain ⟨left, holds, after⟩ := called w v c before raw absent made found
              have beside := @handleCalled host w.run.frame.options path v w c found
              generalize handle host w.run.frame.options path v w = x at beside ⊢
              generalize Run.handle host w.run.frame.options path v w.run = y at beside ⊢
              cases beside with
              | error same => exact .error (same ▸ left)
              | ok result same =>
                subst result same
                exact .ok holds after
            · have unfound := not_exists.mp found
              obtain ⟨holds, after⟩ := uncalled w v before raw absent made unfound
              have beside := @handleUncalled host w.run.frame.options path v w unfound
              generalize handle host w.run.frame.options path v w = x at beside ⊢
              generalize Run.handle host w.run.frame.options path v w.run = y at beside ⊢
              cases beside with
              | error same => exact .error (same ▸ fails w before)
              | ok result same =>
                subst result same
                exact .ok holds after

end Watched

theorem Shows.ends {P E : Watched → Prop} {V : Unit → Prop} {x : EStateM.Result Failure Watched Unit}
    {y : EStateM.Result Failure RunState Unit} (fails : ∀ w, P w → E w) (beside : Shows P E V x y) :
    Watched.forgotten x = y ∧ E (Watched.reached x) := by
  cases beside with
  | ok holds kept => exact ⟨rfl, fails _ kept⟩
  | error left => exact ⟨rfl, left⟩

namespace Template

def concludedStrictly (host : Host) : EStateM.Result Failure RunState Unit → Except Failure RenderResult × World
  | .ok _ s =>
    (.ok ⟨if s.frame.options.escape.isOn then String.ofList (Text.escapeHtml s.frame.output.toList)
        else s.frame.output, s.frame.elapsed (s.world.tick host).1, s.frame.used, s.frame.missing, none⟩,
      (s.world.tick host).2)
  | .error e s => (.error e, s.world)

theorem renderStrictlyEnds {host : Host} {vars : Value} {options : RenderOptions} {w : World} {f : Frame}
    (begun : Frame.start vars options (w.tick host).1 = .ok f) (includer : Includer) (t : Template) :
    t.renderStrictly host includer vars options w =
      concludedStrictly host ((do Run.execute host includer t; Run.checkDeadline host) ⟨f, (w.tick host).2⟩) := by
  simp only [renderStrictly, begin, begun, Except.map, run]
  generalize (do Run.execute host includer t; Run.checkDeadline host : Run Unit) ⟨f, (w.tick host).2⟩ = x
  cases x <;> rfl

def watched (host : Host) (hook : Watched.Hook) (t : Template) (s : RunState) : EStateM.Result Failure Watched Unit :=
  (do Watched.execute host hook t; Watched.carry (Run.checkDeadline host) : Watching Unit) ⟨s, []⟩

variable (host : Host) (hook : Watched.Hook) (t : Template) (vars : Value) (options : RenderOptions) (w : World)

/- The two ways to render a template, watched, and what is seen of either. -/
def watch : Except ValueFault RenderResult × World :=
  match Frame.start vars options (w.tick host).1 with
  | .error f => (.error f, (w.tick host).2)
  | .ok f => concluded host (Watched.forgotten (t.watched host hook ⟨f, (w.tick host).2⟩))

def watchStrictly : Except Failure RenderResult × World :=
  match Frame.start vars options (w.tick host).1 with
  | .error f => (.error (.value f), (w.tick host).2)
  | .ok f => concludedStrictly host (Watched.forgotten (t.watched host hook ⟨f, (w.tick host).2⟩))

def sights : List Sight :=
  match Frame.start vars options (w.tick host).1 with
  | .error _ => []
  | .ok f => (Watched.reached (t.watched host hook ⟨f, (w.tick host).2⟩)).log

theorem concludedCalls (x : EStateM.Result Failure Watched Unit) :
    (concluded host (Watched.forgotten x)).2.calls = (Watched.reached x).run.world.calls := by
  cases x with
  | ok a w => rfl
  | error f w => cases f <;> rfl

theorem concludedStrictlyCalls (x : EStateM.Result Failure Watched Unit) :
    (concludedStrictly host (Watched.forgotten x)).2.calls = (Watched.reached x).run.world.calls := by
  cases x <;> rfl

/- A watched render is the render, and what was called and seen is what it came to. -/
structure Watches (includer : Includer) (reached : List Sight → List (Callable × List Value) → Prop) : Prop where
  same : t.watch host hook vars options w = t.render host includer vars options w
  sameStrictly : t.watchStrictly host hook vars options w = t.renderStrictly host includer vars options w
  seen : reached (t.sights host hook vars options w) (t.render host includer vars options w).2.calls
  seenStrictly : reached (t.sights host hook vars options w) (t.renderStrictly host includer vars options w).2.calls

end Template

namespace Engine

variable (e : Engine) (text : String) (vars : Value) (options : RenderOptions) (w : World)

/- A text, compiled and rendered, watched. -/
def watch : Except ValueFault RenderResult × World :=
  match e.process text true w.cache with
  | (.error fault, cache) => (.ok (.notStarted fault), { w with cache := cache })
  | (.ok p, cache) => p.template.watch e.host (Watched.hook e) vars options { w with cache := cache }

def sights : List Sight :=
  match e.process text true w.cache with
  | (.error _, _) => []
  | (.ok p, cache) => p.template.sights e.host (Watched.hook e) vars options { w with cache := cache }

/- The same of a text. -/
structure Watches (reached : List Sight → List (Callable × List Value) → Prop) : Prop where
  same : e.watch text vars options w = e.render text vars options w
  seen : reached (e.sights text vars options w) (e.render text vars options w).2.calls

end Engine

end Stencil
