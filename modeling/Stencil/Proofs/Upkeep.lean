import Stencil.Proofs.Caching
import Stencil.Proofs.Settled

/-! What is true of the state at every step of a render, and which failures the steps can have. What every
single step upholds, whole procedures and includes of any depth uphold. -/
namespace Stencil

variable {ε ε' σ α β : Type}

/- A result with a property of the state; if it is a failure, it is one that may occur. -/
inductive Upheld (P : σ → Prop) (may : ε → Prop) : EStateM.Result ε σ α → Prop where
  | ok {a s} (kept : P s) : Upheld P may (.ok a s)
  | error {e s} (allowed : may e) (kept : P s) : Upheld P may (.error e s)

def Upholds (P : σ → Prop) (may : ε → Prop) (m : EStateM ε σ α) : Prop := ∀ s, P s → Upheld P may (m s)

namespace Upholds

variable {P : σ → Prop} {may : ε → Prop}

theorem ofPure (a : α) : Upholds P may (pure a : EStateM ε σ α) := fun _ kept => .ok kept

theorem ofThrow {e : ε} (allowed : may e) : Upholds P may (throw e : EStateM ε σ α) :=
  fun _ kept => .error allowed kept

theorem bind {m : EStateM ε σ α} {f : α → EStateM ε σ β} (first : Upholds P may m)
    (next : ∀ a, Upholds P may (f a)) : Upholds P may (m >>= f) := by
  intro s before
  have upheld := first s before
  simp only [Bind.bind, EStateM.bind]
  generalize m s = x at upheld ⊢
  cases upheld with
  | ok kept => exact next _ _ kept
  | error allowed kept => exact .error allowed kept

theorem adaptExcept {m : EStateM ε σ α} {may' : ε' → Prop} {f : ε → ε'} (inner : Upholds P may m)
    (allowed : ∀ e, may e → may' (f e)) : Upholds P may' (m.adaptExcept f) := by
  intro s before
  have upheld := inner s before
  simp only [EStateM.adaptExcept]
  generalize m s = x at upheld ⊢
  cases upheld with
  | ok kept => exact .ok kept
  | error may kept => exact .error (allowed _ may) kept

end Upholds

namespace Expr

variable {P : σ → Prop} {may : Failure → Prop} {problem : String → Prop} {named : Callable → Prop}

/- A problem of an expression, or a failure that it passes on, is one that may occur. -/
def May (may : Failure → Prop) (problem : String → Prop) : EvalFault → Prop
  | .problem text => problem text
  | .passed f => may f

/- A name stands for a callable that may be called, or it is a problem that it stands for none. -/
def Answered (functions : List (String × Callable)) (named : Callable → Prop) (problem : String → Prop)
    (name : String) : Prop :=
  match functions.lookup name with
  | some c => named c
  | none => problem ("Unknown function: " ++ name)

/- Machines that uphold a property as long as they call what they may, and the faults of their work. -/
structure Upholding (P : σ → Prop) (may : Failure → Prop) (problem : String → Prop) (named : Callable → Prop)
    (m : Machine σ) : Prop where
  reads : ∀ path, Upholds P may (m.resolve path)
  calls : ∀ {c}, named c → ∀ args, Upholds P may (m.call c args)
  failed : ∀ name text, problem ("Function '" ++ name ++ "' failed: " ++ text)
  compares : ∀ {r a b f}, Value.compare r a b = .error f →
    if f.family = .value then problem f.message else may (.value f)

variable {m : Machine σ}

theorem calledUpholds (upholding : Upholding P may problem named m) (name : String)
    (result : Except CallFault Value) : Upholds P (May may problem) (called name result) := by
  cases result with
  | ok v => exact .ofPure v
  | error fault => exact .ofThrow (upholding.failed name fault.text)

theorem comparedUpholds (upholding : Upholding P may problem named m) (r : Relation) (a b : Value) :
    Upholds P (May may problem) (compared (Value.compare r a b)) := by
  cases failed : Value.compare r a b with
  | ok v => exact .ofPure _
  | error f =>
    have allowed := upholding.compares failed
    simp only [compared]
    split
    · rename_i family
      exact .ofThrow ((if_pos family).mp allowed)
    · rename_i family
      exact .ofThrow ((if_neg family).mp allowed)

mutual

theorem evalUpholds (upholding : Upholding P may problem named m) (e : Expr)
    (answered : ∀ name ∈ e.functions, Answered m.functions named problem name) :
    Upholds P (May may problem) (e.eval m) := by
  cases e with
  | literal v => exact .ofPure v
  | path p => exact (upholding.reads p).adaptExcept fun _ allowed => allowed
  | call name args =>
    obtain ⟨own, inner⟩ := List.forall_mem_cons.mp answered
    simp only [eval]
    rw [Answered] at own
    cases bound : m.functions.lookup name with
    | none =>
      rw [bound] at own
      exact .ofThrow own
    | some f =>
      rw [bound] at own
      refine .bind (evalAllUpholds upholding args inner) fun values => ?_
      refine .bind ((upholding.calls own _).adaptExcept fun _ allowed => allowed) fun result => ?_
      exact calledUpholds upholding name result
  | group e =>
    simp only [eval]
    exact evalUpholds upholding e answered
  | not e =>
    simp only [eval]
    exact .bind (evalUpholds upholding e answered) fun v => .ofPure _
  | and left right =>
    obtain ⟨first, second⟩ := List.forall_mem_append.mp answered
    simp only [eval]
    refine .bind (evalUpholds upholding left first) fun v => ?_
    split
    · exact evalUpholds upholding right second
    · exact .ofPure v
  | or left right =>
    obtain ⟨first, second⟩ := List.forall_mem_append.mp answered
    simp only [eval]
    refine .bind (evalUpholds upholding left first) fun v => ?_
    split
    · exact .ofPure v
    · exact evalUpholds upholding right second
  | compare relation left right =>
    obtain ⟨first, second⟩ := List.forall_mem_append.mp answered
    simp only [eval]
    exact .bind (evalUpholds upholding left first) fun a =>
      .bind (evalUpholds upholding right second) fun b => comparedUpholds upholding relation a b

theorem evalAllUpholds (upholding : Upholding P may problem named m) (es : List Expr)
    (answered : ∀ name ∈ functionsOf es, Answered m.functions named problem name) :
    Upholds P (May may problem) (evalAll m es) := by
  cases es with
  | nil => exact .ofPure []
  | cons e es =>
    obtain ⟨first, others⟩ := List.forall_mem_append.mp answered
    simp only [evalAll]
    exact .bind (evalUpholds upholding e first) fun v =>
      .bind (evalAllUpholds upholding es others) fun vs => .ofPure _

end

end Expr

/- A property of states that bear certain scopes, which no step of a render takes away. -/
structure Lasting (P : List Scope → RunState → Prop) : Prop where
  scopes : ∀ {scopes s}, P scopes s → s.frame.scopes = scopes
  entering : ∀ {scopes s} scope, P scopes s → P (scope :: scopes) (s.entering scope)
  leaving : ∀ {scope scopes s}, P (scope :: scopes) s → P scopes s.leaving
  writing : ∀ {scopes s} text, P scopes s → P scopes (s.writing text)
  finding : ∀ {scopes s} path, P scopes s → P scopes (s.finding path)
  lacking : ∀ {scopes s} path, P scopes s → P scopes (s.lacking path)
  handling : ∀ {scopes s} path v, P scopes s → P scopes (s.handling path v)

theorem Lasting.withinUpholds {may : Failure → Prop} {P : List Scope → RunState → Prop} (lasting : Lasting P)
    {scopes : List Scope} {scope : Scope} {body : Run Unit} (inner : Upholds (P (scope :: scopes)) may body) :
    Upholds (P scopes) may (Run.within scope body) := by
  intro s before
  have upheld := inner _ (lasting.entering scope before)
  have opened {t : RunState} (kept : P (scope :: scopes) t) : t.frame.scopes ≠ [] := by
    simp [lasting.scopes kept]
  generalize ran : body (s.entering scope) = x at upheld
  cases upheld with
  | ok kept =>
    rw [Run.withinOk ran (opened kept)]
    exact .ok (lasting.leaving kept)
  | error allowed kept =>
    rw [Run.withinError ran (opened kept)]
    exact .error allowed (lasting.leaving kept)

/- The reasons for which a render fails by itself, except that its time is up. -/
inductive Reason.Own : Reason → Prop where
  | undefined (path : String) (more : Entries) : Own (.undefined path more)
  | handlerFailed (path problem : String) : Own (.handlerFailed path problem)
  | filterFailed (name problem : String) : Own (.filterFailed name problem)
  | noLoader (name : String) : Own (.noLoader name)

/- What every step of a render upholds, as long as it calls only what is named and the handlers, with the failures
that the steps may have. -/
structure Keeping (host : Host) (may : Failure → Prop) (problem : String → Prop) (named : Callable → Prop)
    (P : List Scope → RunState → Prop) : Prop extends Lasting P where
  ticking : ∀ {scopes s}, P scopes s → P scopes s.ticked
  calling : ∀ {c scopes s}, named c → ∀ args, P scopes s → P scopes (s.calling c args)
  handled : ∀ {path c scopes s}, Path.under s.frame.options.handlers path = .ok (.callable c) →
    ∀ args, P scopes s → P scopes (s.calling c args)
  own : ∀ {e : TemplateError}, e.reason.Own → may (.template e)
  late : ∀ {scopes s deadline}, P scopes s → s.frame.deadline = some deadline →
    may (.template s.frame.options.timeout.expired)
  raised : ∀ {c args e}, named c → host.apply c args = .error (.template e) → may (.template e)
  problems : ∀ {text} p e, problem text → may (.template (.located p (.evaluation text e)))
  failed : ∀ name text, problem ("Function '" ++ name ++ "' failed: " ++ text)
  raw : ∀ {scopes s path f}, P scopes s →
    rawValue s.frame.vars s.frame.options.defaults path = .error f → may (.value f)
  holds : ∀ {scopes s path f}, P scopes s → Path.holds s.frame.options.handlers path = .error f →
    may (.value f)
  walks : ∀ {v parts f}, Path.walk v parts = .error f → may (.value f)
  compares : ∀ {r a b f}, Value.compare r a b = .error f →
    if f.family = .value then problem f.message else may (.value f)
  texts : ∀ {v f}, Value.text v = .error f → may (.value f)

/- What an instruction itself calls is named, and it is none that nobody knows. -/
def Instruction.Admitted (functions : List (String × Callable)) (may : Failure → Prop) (problem : String → Prop)
    (named : Callable → Prop) : Instruction → Prop
  | .text _ | .inclusion _ _ => True
  | .emit _ _ e filters => (∀ name ∈ e.functions, Expr.Answered functions named problem name) ∧
      ∀ f ∈ filters, named f.callable
  | .branch _ e _ _ | .iterate _ _ e _ => ∀ name ∈ e.functions, Expr.Answered functions named problem name
  | .foreign kind => may (.template (.of (.unknownInstruction kind)))

theorem liftUpholds {may : Failure → Prop} {P : RunState → Prop} {result : Except ValueFault α}
    (allowed : ∀ f, result = .error f → may (.value f)) : Upholds P may (Run.lift result) := by
  cases result with
  | ok a => exact .ofPure a
  | error f => exact .ofThrow (allowed f rfl)

namespace Keeping

variable {host : Host} {may : Failure → Prop} {problem : String → Prop} {named : Callable → Prop}
  {P : List Scope → RunState → Prop} {scopes : List Scope} {functions : List (String × Callable)}

theorem callUpholds (keeping : Keeping host may problem named P) {c : Callable} (known : named c)
    (args : List Value) : Upholds (P scopes) may (Run.call host c args) :=
  fun _ before => .ok (keeping.calling known args before)

theorem deadlineUpholds (keeping : Keeping host may problem named P) :
    Upholds (P scopes) may (Run.checkDeadline host) := by
  intro s before
  cases limited : s.frame.deadline with
  | none =>
    rw [Run.checkDeadlineUnlimited host limited]
    exact .ok before
  | some deadline =>
    rw [Run.checkDeadlineLimited host limited]
    split
    · exact .error (keeping.late before limited) (keeping.ticking before)
    · exact .ok (keeping.ticking before)

theorem handleUpholds (keeping : Keeping host may problem named P) (path : String) (v : Value) {s : RunState}
    (before : P scopes s) : Upheld (P scopes) may (Run.handle host s.frame.options path v s) := by
  have called : Upheld (P scopes) may (Run.callHandler host s.frame.options.handlers path v s) := by
    rw [Run.callHandler]
    cases found : Path.under s.frame.options.handlers path with
    | error fault => exact .ok before
    | ok handler =>
      cases handler with
      | callable c => exact .ok (keeping.handled found _ before)
      | null | missing | str | bool | int | float | date | moment | time | set | list | tuple | map => exact .ok before
  simp only [Run.handle, bind, EStateM.bind]
  generalize Run.callHandler host s.frame.options.handlers path v s = x at called ⊢
  cases called with
  | error allowed kept => exact .error allowed kept
  | @ok result s' kept =>
    cases result with
    | ok v => exact .ok kept
    | error fault =>
      dsimp only
      split
      · exact .error (keeping.own (.handlerFailed _ _)) kept
      · exact .ok kept

theorem lookupUpholds (keeping : Keeping host may problem named P) (path : String) :
    Upholds (P scopes) may (Run.lookup host path) := by
  intro s before
  rw [Run.lookupEnds]
  cases raw : rawValue s.frame.vars s.frame.options.defaults path with
  | error f => exact .error (keeping.raw before raw) before
  | ok v =>
    dsimp only
    split
    · exact .ok before
    · cases holds : Path.holds s.frame.options.handlers path with
      | error f => exact .error (keeping.holds before holds) before
      | ok held =>
        cases held with
        | false => exact .ok before
        | true =>
          cases s.frame.handled.lookup path with
          | some w => exact .ok before
          | none =>
            have handled := keeping.handleUpholds path v before
            simp only [bind, EStateM.bind]
            generalize Run.handle host s.frame.options path v s = x at handled ⊢
            cases handled with
            | ok kept => exact .ok (keeping.handling path _ kept)
            | error allowed kept => exact .error allowed kept

theorem resolveUpholds (keeping : Keeping host may problem named P) (path : String) :
    Upholds (P scopes) may (Run.resolve host path) := by
  intro s before
  rw [Run.resolveEnds]
  cases Path.segments path with
  | nil => exact .ok before
  | cons root rest =>
    dsimp only
    cases s.frame.bound? root with
    | some v => exact liftUpholds (fun f failed => keeping.walks failed) s before
    | none => exact keeping.lookupUpholds path s before

theorem requireUpholds (keeping : Keeping host may problem named P) (paths : List String) :
    Upholds (P scopes) may (Run.require host paths) := by
  induction paths with
  | nil => exact .ofPure ()
  | cons path paths ih =>
    refine .bind (keeping.resolveUpholds path) fun v => ?_
    split
    · refine .bind (fun s before => .ok (keeping.lacking path before)) fun _ => ?_
      refine .bind (fun s before => .ok before) fun f => ?_
      split
      · exact .ofThrow (keeping.own (.undefined _ _))
      · exact ih
    · exact .bind (fun s before => .ok (keeping.finding path before)) fun _ => ih

theorem filtersUphold (keeping : Keeping host may problem named P) (p : Position) (fs : List BoundFilter)
    (known : ∀ f ∈ fs, named f.callable) (v : Value) :
    Upholds (P scopes) may (Run.applyFilters host p fs v) := by
  induction fs generalizing v with
  | nil => exact .ofPure v
  | cons f fs ih =>
    obtain ⟨first, others⟩ := List.forall_mem_cons.mp known
    intro s before
    have kept : P scopes (s.calling f.callable (v :: f.args)) := keeping.calling first _ before
    have called : Run.call host f.callable (v :: f.args) s =
        .ok (host.apply f.callable (v :: f.args)) (s.calling f.callable (v :: f.args)) := rfl
    simp only [Run.applyFilters, bind, EStateM.bind, called]
    cases applied : host.apply f.callable (v :: f.args) with
    | ok w => exact ih others w _ kept
    | error fault =>
      cases fault with
      | template e => exact .error (keeping.raised first applied) kept
      | value | other => exact .error (keeping.own (.filterFailed _ _)) kept

theorem evaluateUpholds (keeping : Keeping host may problem named P) (p : Position) (e : Expr)
    (answered : ∀ name ∈ e.functions, Expr.Answered functions named problem name) :
    Upholds (P scopes) may (Run.evaluate host functions p e) := by
  refine .adaptExcept (Expr.evalUpholds (m := Run.machine host functions) ⟨keeping.resolveUpholds,
    keeping.callUpholds, keeping.failed, keeping.compares⟩ e answered) ?_
  intro fault allowed
  cases fault with
  | problem text => exact keeping.problems p e.text allowed
  | passed f => exact allowed

theorem turnsUpholds (keeping : Keeping host may problem named P) {body : Run Unit} (name : String)
    (last index : Nat) (items : List Value) (inner : ∀ scopes, Upholds (P scopes) may body) :
    Upholds (P scopes) may (Run.eachItem host name body last index items) := by
  induction items generalizing index with
  | nil => exact .ofPure ()
  | cons item items ih =>
    exact .bind keeping.deadlineUpholds fun _ => .bind (keeping.withinUpholds (inner _)) fun _ => ih (index + 1)

mutual

theorem execUpholds (keeping : Keeping host may problem named P) {includer : Includer} {scopes : List Scope}
    (i : Instruction) (admitted : ∀ j ∈ i.all, j.Admitted functions may problem named)
    (included : ∀ p name, .inclusion p name ∈ i.all → ∀ run, includer = some run →
      ∀ scopes, Upholds (P scopes) may (run name)) :
    Upholds (P scopes) may (Run.exec host includer functions i) := by
  have first := admitted i i.memAll
  cases i with
  | text s => exact fun _ before => .ok (keeping.writing s before)
  | emit p source e filters =>
    simp only [Run.exec]
    refine .bind (keeping.evaluateUpholds p e first.1) fun v => ?_
    refine .bind (keeping.filtersUphold p filters first.2 v.plain) fun w => ?_
    refine .bind (liftUpholds fun f failed => keeping.texts failed) fun text => ?_
    exact fun _ before => .ok (keeping.writing text before)
  | branch p e thenPart otherwise =>
    simp only [Run.exec]
    refine .bind (keeping.evaluateUpholds p e first) fun v => ?_
    split
    · refine execAllUpholds keeping thenPart (fun j here => admitted j ?_) fun p name here => included p name ?_
      · simp [Instruction.all, here]
      · simp [Instruction.all, here]
    · refine execAllUpholds keeping otherwise (fun j here => admitted j ?_) fun p name here => included p name ?_
      · simp [Instruction.all, here]
      · simp [Instruction.all, here]
  | iterate p name e body =>
    simp only [Run.exec]
    refine .bind (keeping.evaluateUpholds p e first) fun v => ?_
    refine keeping.turnsUpholds name _ 0 _ fun scopes => ?_
    refine execAllUpholds keeping body (fun j here => admitted j ?_) fun p name here => included p name ?_
    · simp [Instruction.all, here]
    · simp [Instruction.all, here]
  | inclusion p name =>
    simp only [Run.exec]
    cases present : includer with
    | none => exact .ofThrow (keeping.own (.noLoader name))
    | some run => exact included p name (Instruction.memAll _) run present scopes
  | foreign kind => exact .ofThrow first

theorem execAllUpholds (keeping : Keeping host may problem named P) {includer : Includer} {scopes : List Scope}
    (is : List Instruction) (admitted : ∀ j ∈ Instruction.allOf is, j.Admitted functions may problem named)
    (included : ∀ p name, .inclusion p name ∈ Instruction.allOf is → ∀ run, includer = some run →
      ∀ scopes, Upholds (P scopes) may (run name)) :
    Upholds (P scopes) may (Run.execAll host includer functions is) := by
  cases is with
  | nil => exact .ofPure ()
  | cons i is =>
    obtain ⟨first, others⟩ := List.forall_mem_append.mp (by simpa only [Instruction.allOf] using admitted)
    simp only [Run.execAll]
    refine .bind keeping.deadlineUpholds fun _ => .bind ?_ fun _ => ?_
    · exact execUpholds keeping i first fun p name here => included p name (by simp [Instruction.allOf, here])
    · exact execAllUpholds keeping is others fun p name here => included p name (by simp [Instruction.allOf, here])

end

theorem executeUpholds (keeping : Keeping host may problem named P) {includer : Includer} (t : Template)
    (admitted : ∀ j ∈ Instruction.allOf t.procedure.instructions,
      j.Admitted t.procedure.functions may problem named)
    (included : ∀ p name, .inclusion p name ∈ Instruction.allOf t.procedure.instructions →
      ∀ run, includer = some run → ∀ scopes, Upholds (P scopes) may (run name)) :
    Upholds (P scopes) may (Run.execute host includer t) :=
  .bind (keeping.requireUpholds _) fun _ => keeping.execAllUpholds _ admitted included

/- Includes of any depth, where nothing that any template may hold is refused. -/
theorem inclusionUpholds {e : Engine} (keeping : Keeping e.host may problem named P)
    (admits : ∀ functions i, Instruction.Admitted functions may problem named i)
    (full : ∀ name, may (.template (.of (.tooManyIncludes e.settings.includeDepth name))))
    (sources : ∀ {name fault}, e.source name = .error fault → may (.template fault))
    (loads : ∀ text scopes, Upholds (P scopes) may (e.load text)) (remaining : Nat) (name : String)
    (scopes : List Scope) : Upholds (P scopes) may (e.inclusion remaining name) := by
  induction remaining generalizing name scopes with
  | zero => exact .ofThrow (full name)
  | succ remaining ih =>
    simp only [Engine.inclusion]
    cases found : e.source name with
    | error fault => exact .ofThrow (sources found)
    | ok text =>
      refine .bind (loads text scopes) fun t => keeping.executeUpholds t (fun j _ => admits _ j) ?_
      rintro p word - run same scopes
      cases same
      exact ih word scopes

end Keeping

/- Where every name and every problem will do, only what nobody knows is left to ask for. -/
theorem Instruction.admittedFreely {may : Failure → Prop}
    (foreign : ∀ kind, may (.template (.of (.unknownInstruction kind)))) (functions : List (String × Callable))
    (i : Instruction) : i.Admitted functions may (fun _ => True) (fun _ => True) := by
  have answered (name : String) : Expr.Answered functions (fun _ => True) (fun _ => True) name := by
    rw [Expr.Answered]
    split <;> trivial
  cases i with
  | text | inclusion => trivial
  | emit => exact ⟨fun name _ => answered name, fun _ _ => trivial⟩
  | branch | iterate => exact fun name _ => answered name
  | foreign kind => exact foreign kind

/- A property of the options and of what was found and missed so far, next to the scopes that are open. -/
structure Noted (Q : RenderOptions → List String → List String → Prop) (scopes : List Scope) (s : RunState) :
    Prop where
  scopes : s.frame.scopes = scopes
  noted : Q s.frame.options s.frame.used s.frame.missing

/- It lasts if it lasts as more is found and missed. -/
theorem Noted.lasting {Q : RenderOptions → List String → List String → Prop}
    (finding : ∀ {options used missing} path, Q options used missing → Q options (appendNew path used) missing)
    (lacking : ∀ {options used missing} path, Q options used missing → Q options used (appendNew path missing)) :
    Lasting (Noted Q) where
  scopes before := before.scopes
  entering scope before := ⟨congrArg (scope :: ·) before.scopes, before.noted⟩
  leaving before := ⟨congrArg List.tail before.scopes, before.noted⟩
  writing _ before := ⟨before.scopes, before.noted⟩
  finding path before := ⟨before.scopes, finding path before.noted⟩
  lacking path before := ⟨before.scopes, lacking path before.noted⟩
  handling _ _ before := ⟨before.scopes, before.noted⟩

theorem Noted.world {Q : RenderOptions → List String → List String → Prop} {scopes : List Scope} {s : RunState}
    (noted : Noted Q scopes s) (w : World) : Noted Q scopes { s with world := w } :=
  ⟨noted.scopes, noted.noted⟩

/- A property that says nothing of the world, where every error of templates may occur. Whatever is called or
included, it stays. -/
structure Upkeep (may : Failure → Prop) (P : List Scope → RunState → Prop) : Prop extends Lasting P where
  world : ∀ {scopes s} w, P scopes s → P scopes { s with world := w }
  errors : ∀ e, may (.template e)
  raw : ∀ {scopes s path f}, P scopes s →
    rawValue s.frame.vars s.frame.options.defaults path = .error f → may (.value f)
  holds : ∀ {scopes s path f}, P scopes s → Path.holds s.frame.options.handlers path = .error f →
    may (.value f)
  walks : ∀ {v parts f}, Path.walk v parts = .error f → may (.value f)
  compares : ∀ {r a b f}, Value.compare r a b = .error f → f.family ≠ .value → may (.value f)
  texts : ∀ {v f}, Value.text v = .error f → may (.value f)

/- Whatever the failures are, the property lasts. -/
theorem Lasting.upkeep {P : List Scope → RunState → Prop} (lasting : Lasting P)
    (world : ∀ {scopes s} w, P scopes s → P scopes { s with world := w }) : Upkeep (fun _ => True) P where
  toLasting := lasting
  world := world
  errors _ := trivial
  raw _ _ := trivial
  holds _ _ := trivial
  walks _ := trivial
  compares _ _ := trivial
  texts _ := trivial

namespace Upkeep

variable {host : Host} {may : Failure → Prop} {P : List Scope → RunState → Prop} {scopes : List Scope}

theorem keeping (upkeep : Upkeep may P) : Keeping host may (fun _ => True) (fun _ => True) P where
  toLasting := upkeep.toLasting
  ticking before := upkeep.world _ before
  calling _ _ before := upkeep.world _ before
  handled _ _ before := upkeep.world _ before
  own _ := upkeep.errors _
  late _ _ := upkeep.errors _
  raised _ _ := upkeep.errors _
  problems _ _ _ := upkeep.errors _
  failed _ _ := trivial
  raw := upkeep.raw
  holds := upkeep.holds
  walks := upkeep.walks
  compares failed := by
    split
    · trivial
    · exact upkeep.compares failed ‹_›
  texts := upkeep.texts

theorem admits (upkeep : Upkeep may P) (functions : List (String × Callable)) (i : Instruction) :
    i.Admitted functions may (fun _ => True) (fun _ => True) :=
  Instruction.admittedFreely (fun _ => upkeep.errors _) functions i

theorem execUpholds (upkeep : Upkeep may P) {includer : Includer} (functions : List (String × Callable))
    (i : Instruction) (included : ∀ run, includer = some run → ∀ name scopes, Upholds (P scopes) may (run name)) :
    Upholds (P scopes) may (Run.exec host includer functions i) :=
  upkeep.keeping.execUpholds i (fun j _ => upkeep.admits functions j) fun _ name _ run here => included run here name

theorem execAllUpholds (upkeep : Upkeep may P) {includer : Includer} (functions : List (String × Callable))
    (is : List Instruction)
    (included : ∀ run, includer = some run → ∀ name scopes, Upholds (P scopes) may (run name)) :
    Upholds (P scopes) may (Run.execAll host includer functions is) :=
  upkeep.keeping.execAllUpholds is (fun j _ => upkeep.admits functions j) fun _ name _ run here =>
    included run here name

theorem executeUpholds (upkeep : Upkeep may P) {includer : Includer} (t : Template)
    (included : ∀ run, includer = some run → ∀ name scopes, Upholds (P scopes) may (run name)) :
    Upholds (P scopes) may (Run.execute host includer t) :=
  upkeep.keeping.executeUpholds t (fun j _ => upkeep.admits _ j) fun _ name _ run here => included run here name

theorem loadUpholds (upkeep : Upkeep may P) (e : Engine) (text : String) :
    Upholds (P scopes) may (e.load text) := by
  intro s before
  rw [Engine.loadEnds]
  cases (e.process text true s.world.cache).1 with
  | ok p => exact .ok (upkeep.world _ before)
  | error fault => exact .error (upkeep.errors _) (upkeep.world _ before)

theorem inclusionUpholds (upkeep : Upkeep may P) (e : Engine) (remaining : Nat) (name : String)
    (scopes : List Scope) : Upholds (P scopes) may (e.inclusion remaining name) :=
  upkeep.keeping.inclusionUpholds upkeep.admits (fun _ => upkeep.errors _) (fun _ => upkeep.errors _)
    (fun text _ => upkeep.loadUpholds e text) remaining name scopes

end Upkeep

namespace Template

/- The result of a render that has come to an end. -/
def concluded (host : Host) : EStateM.Result Failure RunState Unit → Except ValueFault RenderResult × World
  | .ok _ s =>
    (.ok ⟨if s.frame.options.escape.isOn then String.ofList (Text.escapeHtml s.frame.output.toList)
        else s.frame.output, s.frame.elapsed (s.world.tick host).1, s.frame.used, s.frame.missing, none⟩,
      (s.world.tick host).2)
  | .error (.template e) s =>
    (.ok ⟨"", s.frame.elapsed (s.world.tick host).1, s.frame.used, s.frame.missing, some e⟩,
      (s.world.tick host).2)
  | .error (.value f) s => (.error f, s.world)

theorem renderEnds {host : Host} {vars : Value} {options : RenderOptions} {w : World} {f : Frame}
    (begun : Frame.start vars options (w.tick host).1 = .ok f) (includer : Includer) (t : Template) :
    t.render host includer vars options w =
      concluded host ((do Run.execute host includer t; Run.checkDeadline host) ⟨f, (w.tick host).2⟩) := by
  simp only [render, begin, begun, Except.map, run]
  generalize (do Run.execute host includer t; Run.checkDeadline host : Run Unit) ⟨f, (w.tick host).2⟩ = x
  cases x with
  | ok a s => rfl
  | error e s => cases e <;> rfl

end Template
end Stencil
