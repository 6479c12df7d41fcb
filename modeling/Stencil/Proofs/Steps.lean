import Stencil.Engine
import Stencil.Proofs.Coupling

/-! What running instructions does to the state of a render, one step at a time. A relation between states
that every single step respects is respected by whole procedures and by includes of any depth. -/
namespace Stencil

/- The error that tells of a limit. -/
def Timeout.expired (limit : Timeout) : TemplateError := .of (.timeout limit.brief limit.toValue)

namespace RunState

def entering (scope : Scope) (s : RunState) : RunState :=
  { s with frame := { s.frame with scopes := scope :: s.frame.scopes } }

def leaving (s : RunState) : RunState :=
  { s with frame := { s.frame with scopes := s.frame.scopes.tail } }

def writing (text : String) (s : RunState) : RunState :=
  { s with frame := { s.frame with output := s.frame.output ++ text } }

def finding (path : String) (s : RunState) : RunState :=
  { s with frame := { s.frame with used := appendNew path s.frame.used } }

def lacking (path : String) (s : RunState) : RunState :=
  { s with frame := { s.frame with missing := appendNew path s.frame.missing } }

def handling (path : String) (v : Value) (s : RunState) : RunState :=
  { s with frame := { s.frame with handled := s.frame.handled ++ [(path, v)] } }

/- The clock was read. -/
def ticked (s : RunState) : RunState := { s with world := { s.world with reads := s.world.reads + 1 } }

def calling (c : Callable) (args : List Value) (s : RunState) : RunState :=
  { s with world := { s.world with calls := (c, args) :: s.world.calls } }

end RunState

namespace Run

theorem popScopeOpen {s : RunState} (opened : s.frame.scopes ≠ []) : popScope s = .ok () s.leaving := by
  obtain ⟨⟨vars, options, output, scopes, used, missing, handled, started, deadline⟩, world⟩ := s
  cases scopes with
  | nil => exact absurd rfl opened
  | cons scope rest => rfl

theorem withinOk {scope : Scope} {body : Run Unit} {s after : RunState} {a : Unit}
    (ran : body (s.entering scope) = .ok a after) (opened : after.frame.scopes ≠ []) :
    within scope body s = .ok a after.leaving := by
  have begun : within scope body s = tryFinally body popScope (s.entering scope) := rfl
  rw [begun]
  simp only [tryFinally, tryFinally', Functor.map, EStateM.map, ran, popScopeOpen opened]

theorem withinError {scope : Scope} {body : Run Unit} {s after : RunState} {e : Failure}
    (ran : body (s.entering scope) = .error e after) (opened : after.frame.scopes ≠ []) :
    within scope body s = .error e after.leaving := by
  have begun : within scope body s = tryFinally body popScope (s.entering scope) := rfl
  rw [begun]
  simp only [tryFinally, tryFinally', Functor.map, EStateM.map, ran, popScopeOpen opened]

theorem withinEnds {R R' : RunState → RunState → Prop} {scope : Scope} {body body' : Run Unit}
    {s t : RunState} (leave : ∀ s t, R' s t → s.frame.scopes ≠ [] ∧ t.frame.scopes ≠ [] ∧ R s.leaving t.leaving)
    (ends : Ends R' (body (s.entering scope)) (body' (t.entering scope))) :
    Ends R (within scope body s) (within scope body' t) := by
  generalize left : body (s.entering scope) = x at ends
  generalize right : body' (t.entering scope) = y at ends
  cases ends with
  | ok a after =>
    obtain ⟨opened, opened', closed⟩ := leave _ _ after
    rw [withinOk left opened, withinOk right opened']
    exact .ok a closed
  | error e after =>
    obtain ⟨opened, opened', closed⟩ := leave _ _ after
    rw [withinError left opened, withinError right opened']
    exact .error e closed

theorem withinCoupled {R R' : RunState → RunState → Prop} {scope : Scope} {body body' : Run Unit}
    (enter : ∀ s t, R s t → R' (s.entering scope) (t.entering scope))
    (leave : ∀ s t, R' s t → s.frame.scopes ≠ [] ∧ t.frame.scopes ≠ [] ∧ R s.leaving t.leaving)
    (inner : Coupled R' body body') : Coupled R (within scope body) (within scope body') :=
  fun s t related => withinEnds leave (inner _ _ (enter s t related))

theorem liftCoupled {R : RunState → RunState → Prop} (result : Except ValueFault α) :
    Coupled R (lift result) (lift result) := by
  cases result with
  | ok a => exact .ofPure a
  | error fault => exact .ofThrow _

/- Filters only make calls. -/
theorem filtersCoupled {R : RunState → RunState → Prop} {host : Host}
    (calls : ∀ c args, Coupled R (call host c args) (call host c args)) (p : Position)
    (fs : List BoundFilter) (v : Value) : Coupled R (applyFilters host p fs v) (applyFilters host p fs v) := by
  induction fs generalizing v with
  | nil => exact .ofPure v
  | cons f fs ih =>
    refine .bind (calls f.callable (v :: f.args)) fun result => ?_
    split
    · exact ih _
    · exact .ofThrow _
    · exact .ofThrow _

/- Without a limit the clock is not read. -/
theorem checkDeadlineUnlimited {s : RunState} (host : Host) (unlimited : s.frame.deadline = none) :
    checkDeadline host s = .ok () s := by
  simp only [checkDeadline, frame, bind, EStateM.bind, get, getThe, MonadStateOf.get, EStateM.get, pure,
    EStateM.pure, unlimited]

/- With a deadline the clock is read once. -/
theorem checkDeadlineLimited (host : Host) {s : RunState} {deadline : Binary64}
    (limited : s.frame.deadline = some deadline) : checkDeadline host s =
      if deadline.lt (host.clock s.world.reads) then .error (.template s.frame.options.timeout.expired) s.ticked
      else .ok () s.ticked := by
  simp only [checkDeadline, frame, now, bind, EStateM.bind, get, getThe, MonadStateOf.get, EStateM.get, pure,
    EStateM.pure, limited, modifyGet, MonadStateOf.modifyGet, EStateM.modifyGet, World.tick]
  split <;> rfl

/- At most the clock is read. -/
theorem checkDeadlineEnds (host : Host) (s : RunState) :
    ∃ reads, checkDeadline host s = .ok () { s with world := { s.world with reads := reads } } ∨
      ∃ fault, checkDeadline host s = .error fault { s with world := { s.world with reads := reads } } := by
  cases limit : s.frame.deadline with
  | none => exact ⟨s.world.reads, .inl (checkDeadlineUnlimited host limit)⟩
  | some deadline =>
    refine ⟨s.world.reads + 1, ?_⟩
    rw [checkDeadlineLimited host limit]
    split
    · exact .inr ⟨_, rfl⟩
    · exact .inl rfl

theorem resolveEnds (host : Host) (path : String) (s : RunState) :
    resolve host path s =
      match Path.segments path with
      | [] => .ok .missing s
      | root :: rest =>
        match s.frame.bound? root with
        | some v => lift (Path.walk v rest) s
        | none => lookup host path s := by
  simp only [resolve]
  cases Path.segments path with
  | nil => rfl
  | cons root rest =>
    simp only [frame, bind, EStateM.bind, get, getThe, MonadStateOf.get, EStateM.get, pure,
      EStateM.pure]
    cases s.frame.bound? root <;> rfl

end Run

/- What a path is good for where `bound` are the names that loops bind: it leads into one of them, or it has
been declared. -/
def Readable (declared : String → Prop) (bound : List String) (path : String) : Prop :=
  declared path ∨ ∃ root rest, Path.segments path = root :: rest ∧ root ∈ bound

namespace Instruction

mutual

/- Every path that an instruction reads is bound around it or declared. -/
def Scoped (declared : String → Prop) (bound : List String) (i : Instruction) : Prop :=
  match i with
  | .text _ | .inclusion _ _ | .foreign _ => True
  | .emit _ _ e _ => ∀ path ∈ e.paths, Readable declared bound path
  | .branch _ e thenPart otherwise =>
    (∀ path ∈ e.paths, Readable declared bound path) ∧
      ScopedAll declared bound thenPart ∧ ScopedAll declared bound otherwise
  | .iterate _ name e body =>
    (∀ path ∈ e.paths, Readable declared bound path) ∧
      ScopedAll declared (loopNames name ++ bound) body
termination_by structural i

def ScopedAll (declared : String → Prop) (bound : List String) (is : List Instruction) : Prop :=
  match is with
  | [] => True
  | i :: is => Scoped declared bound i ∧ ScopedAll declared bound is
termination_by structural is

end

mutual

/- An instruction with those inside it, to any depth. -/
def all (i : Instruction) : List Instruction :=
  i :: match i with
    | .branch _ _ thenPart otherwise => allOf thenPart ++ allOf otherwise
    | .iterate _ _ _ body => allOf body
    | _ => []
termination_by structural i

def allOf (is : List Instruction) : List Instruction :=
  match is with
  | [] => []
  | i :: is => all i ++ allOf is
termination_by structural is

end

theorem memAll (i : Instruction) : i ∈ i.all := by
  cases i with
  | text | emit | branch | iterate | inclusion | foreign => simp [all]

mutual

/- The names of the templates that an instruction includes. -/
def inclusions (i : Instruction) : List String :=
  match i with
  | .text _ | .emit _ _ _ _ | .foreign _ => []
  | .branch _ _ thenPart otherwise => inclusionsOf thenPart ++ inclusionsOf otherwise
  | .iterate _ _ _ body => inclusionsOf body
  | .inclusion _ name => [name]
termination_by structural i

def inclusionsOf (is : List Instruction) : List String :=
  match is with
  | [] => []
  | i :: is => inclusions i ++ inclusionsOf is
termination_by structural is

end

end Instruction

namespace Instruction

mutual

/- Where every path is declared there is nothing to check. -/
theorem scopedFreely {bound : List String} (i : Instruction) : i.Scoped (fun _ => True) bound := by
  cases i with
  | text | inclusion | foreign => trivial
  | emit => exact fun path _ => .inl trivial
  | branch p e thenPart otherwise =>
    exact ⟨fun path _ => .inl trivial, scopedAllFreely thenPart, scopedAllFreely otherwise⟩
  | iterate p name e body => exact ⟨fun path _ => .inl trivial, scopedAllFreely body⟩

theorem scopedAllFreely {bound : List String} (is : List Instruction) :
    ScopedAll (fun _ => True) bound is := by
  cases is with
  | nil => trivial
  | cons i is => exact ⟨scopedFreely i, scopedAllFreely is⟩

end

end Instruction

/- A relation between states that bear the same scopes, which reading variables, calling and writing respect. -/
structure Reading (host : Host) (declared : String → Prop)
    (R : List Scope → RunState → RunState → Prop) : Prop where
  scopes : ∀ {scopes s t}, R scopes s t → s.frame.scopes = scopes ∧ t.frame.scopes = scopes
  entering : ∀ {scopes s t} scope, R scopes s t → R (scope :: scopes) (s.entering scope) (t.entering scope)
  leaving : ∀ {scope scopes s t}, R (scope :: scopes) s t → R scopes s.leaving t.leaving
  writing : ∀ {scopes s t} text, R scopes s t → R scopes (s.writing text) (t.writing text)
  lookup : ∀ scopes path, declared path → Coupled (R scopes) (Run.lookup host path) (Run.lookup host path)
  call : ∀ scopes c args, Coupled (R scopes) (Run.call host c args) (Run.call host c args)

/- Noting what is found and what is missing respects it too. -/
structure Requiring (host : Host) (declared : String → Prop)
    (R : List Scope → RunState → RunState → Prop) : Prop extends Reading host declared R where
  strict : ∀ {scopes s t}, R scopes s t → s.frame.options.strict = t.frame.options.strict
  finding : ∀ {scopes s t} path, R scopes s t → R scopes (s.finding path) (t.finding path)
  lacking : ∀ {scopes s t} path, R scopes s t → R scopes (s.lacking path) (t.lacking path)

/- Every step of a render respects it. -/
structure Stepwise (host : Host) (declared : String → Prop)
    (R : List Scope → RunState → RunState → Prop) : Prop extends Requiring host declared R where
  options : ∀ {scopes s t}, R scopes s t → s.frame.options = t.frame.options
  strict := fun related => congrArg RenderOptions.strict (options related)
  deadline : ∀ scopes, Coupled (R scopes) (Run.checkDeadline host) (Run.checkDeadline host)

def Covers (scopes : List Scope) (bound : List String) : Prop :=
  ∀ name ∈ bound, ∃ v, scopes.findSome? (·.lookup name) = some v

theorem loopScopeBinds {name word : String} (index last : Nat) (item : Value)
    (member : word ∈ loopNames name) :
    ∃ v, (Run.loopScope name index last item).lookup word = some v := by
  simp only [loopNames, List.mem_cons, List.not_mem_nil, or_false] at member
  rw [← Option.isSome_iff_exists, List.lookup_isSome_iff]
  rcases member with rfl | rfl | rfl | rfl | rfl <;> simp [Run.loopScope]

theorem coversTurn {scopes : List Scope} {bound : List String} (covers : Covers scopes bound)
    (name : String) (index last : Nat) (item : Value) :
    Covers (Run.loopScope name index last item :: scopes) (loopNames name ++ bound) := by
  intro word member
  rcases List.mem_append.mp member with here | outside
  · obtain ⟨v, found⟩ := loopScopeBinds index last item here
    exact ⟨v, by simp [found]⟩
  · obtain ⟨v, found⟩ := covers word outside
    cases inner : (Run.loopScope name index last item).lookup word with
    | some w => exact ⟨w, by simp [inner]⟩
    | none => exact ⟨v, by simp [inner, found]⟩

section

variable {host : Host} {declared : String → Prop} {R : List Scope → RunState → RunState → Prop}
  {scopes : List Scope} {bound : List String}

theorem Reading.resolveCoupled (reading : Reading host declared R) (covers : Covers scopes bound) {path : String}
    (readable : Readable declared bound path) :
    Coupled (R scopes) (Run.resolve host path) (Run.resolve host path) := by
  intro s t related
  obtain ⟨left, right⟩ := reading.scopes related
  simp only [Run.resolveEnds, Frame.bound?, left, right]
  cases parts : Path.segments path with
  | nil => exact .ok Value.missing related
  | cons root rest =>
    dsimp only
    cases found : scopes.findSome? (·.lookup root) with
    | some v => exact Run.liftCoupled _ s t related
    | none =>
      rcases readable with known | ⟨root', rest', parts', member⟩
      · exact reading.lookup scopes path known s t related
      · obtain ⟨rfl, -⟩ := List.cons.inj (parts.symm.trans parts')
        obtain ⟨v, present⟩ := covers root member
        simp [found] at present

theorem Reading.filtersCoupled (reading : Reading host declared R) (p : Position) (fs : List BoundFilter)
    (v : Value) : Coupled (R scopes) (Run.applyFilters host p fs v) (Run.applyFilters host p fs v) :=
  Run.filtersCoupled (reading.call scopes) p fs v

theorem Reading.evaluateCoupled (reading : Reading host declared R) (covers : Covers scopes bound)
    (functions : List (String × Callable)) (p : Position) {e : Expr}
    (readable : ∀ path ∈ e.paths, Readable declared bound path) :
    Coupled (R scopes) (Run.evaluate host functions p e) (Run.evaluate host functions p e) := by
  refine .adaptExcept _ (Expr.evalCoupled e ⟨?_, fun _ _ => rfl, reading.call scopes⟩)
  exact fun path member => reading.resolveCoupled covers (readable path member)

/- Where every path is declared, every path can be read. -/
theorem Reading.resolves (reading : Reading host (fun _ => True) R) (path : String) :
    Coupled (R scopes) (Run.resolve host path) (Run.resolve host path) := by
  have nothing : Covers scopes [] := by simp [Covers]
  exact reading.resolveCoupled nothing (.inl trivial)

theorem Reading.evaluates (reading : Reading host (fun _ => True) R) (functions : List (String × Callable))
    (p : Position) (e : Expr) :
    Coupled (R scopes) (Run.evaluate host functions p e) (Run.evaluate host functions p e) := by
  have nothing : Covers scopes [] := by simp [Covers]
  exact reading.evaluateCoupled nothing functions p fun path _ => .inl trivial

theorem Reading.writeCoupled (reading : Reading host declared R) (text : String) :
    Coupled (R scopes) (Run.write text) (Run.write text) :=
  fun _ _ related => .ok () (reading.writing text related)

theorem Reading.opened (reading : Reading host declared R) {scope : Scope} {s t : RunState}
    (related : R (scope :: scopes) s t) :
    s.frame.scopes ≠ [] ∧ t.frame.scopes ≠ [] ∧ R scopes s.leaving t.leaving := by
  obtain ⟨left, right⟩ := reading.scopes related
  exact ⟨by simp [left], by simp [right], reading.leaving related⟩

theorem modifyCoupled {R : RunState → RunState → Prop} {f : Frame → Frame}
    (kept : ∀ s t, R s t → R { s with frame := f s.frame } { t with frame := f t.frame }) :
    Coupled R (Run.modifyFrame f) (Run.modifyFrame f) :=
  fun s t related => .ok () (kept s t related)

/- What is asked of the frame may differ on the two sides. -/
theorem asksCoupled {R : RunState → RunState → Prop} {f g : Frame → Run α}
    (next : ∀ s t, R s t → Ends R (f s.frame s) (g t.frame t)) :
    Coupled R (Run.frame >>= f) (Run.frame >>= g) := next

theorem Requiring.requireCoupled (requiring : Requiring host declared R) {paths : List String}
    (known : ∀ path ∈ paths, declared path) :
    Coupled (R scopes) (Run.require host paths) (Run.require host paths) := by
  induction paths with
  | nil => exact .ofPure ()
  | cons path paths ih =>
    have rest := ih fun p member => known p (List.mem_cons_of_mem _ member)
    have first : Readable declared [] path := .inl (known path (by simp))
    refine .bind (requiring.resolveCoupled (by simp [Covers]) first) fun v => ?_
    split
    · refine .bind (modifyCoupled fun s t => requiring.lacking path) fun _ => ?_
      refine asksCoupled fun s t related => ?_
      simp only [requiring.strict related]
      split
      · exact .error _ related
      · exact rest s t related
    · exact .bind (modifyCoupled fun s t => requiring.finding path) fun _ => rest

end

namespace Stepwise

variable {host : Host} {declared : String → Prop} {R : List Scope → RunState → RunState → Prop}
  {scopes : List Scope} {bound : List String}

theorem turnsCoupled (steps : Stepwise host declared R) {body body' : Run Unit} (name : String)
    (last index : Nat) (items : List Value)
    (inner : ∀ index item, Coupled (R (Run.loopScope name index last item :: scopes)) body body') :
    Coupled (R scopes) (Run.eachItem host name body last index items)
      (Run.eachItem host name body' last index items) := by
  induction items generalizing index with
  | nil => exact .ofPure ()
  | cons item items ih =>
    refine .bind (steps.deadline scopes) fun _ => .bind ?_ fun _ => ih (index + 1)
    exact Run.withinCoupled (fun s t => steps.entering _) (fun s t => steps.opened) (inner index item)

mutual

theorem execCoupled (steps : Stepwise host declared R) {includer : Includer}
    {scopes : List Scope} {bound : List String}
    (functions : List (String × Callable)) (i : Instruction) (covers : Covers scopes bound)
    (wellScoped : i.Scoped declared bound)
    (included : ∀ run, includer = some run → ∀ name ∈ i.inclusions, ∀ scopes,
      Coupled (R scopes) (run name) (run name)) :
    Coupled (R scopes) (Run.exec host includer functions i)
      (Run.exec host includer functions i) := by
  cases i with
  | text s =>
    simp only [Run.exec]
    exact steps.writeCoupled s
  | emit p source e filters =>
    simp only [Run.exec]
    refine .bind (steps.evaluateCoupled covers functions p wellScoped) fun v => ?_
    refine .bind (steps.filtersCoupled p filters v.plain) fun w => ?_
    exact .bind (Run.liftCoupled _) steps.writeCoupled
  | branch p e thenPart otherwise =>
    obtain ⟨readable, first, second⟩ := wellScoped
    simp only [Run.exec]
    refine .bind (steps.evaluateCoupled covers functions p readable) fun v => ?_
    split
    · exact execAllCoupled steps functions thenPart covers first fun run here name member =>
        included run here name (List.mem_append_left _ member)
    · exact execAllCoupled steps functions otherwise covers second fun run here name member =>
        included run here name (List.mem_append_right _ member)
  | iterate p name e body =>
    obtain ⟨readable, inside⟩ := wellScoped
    simp only [Run.exec]
    refine .bind (steps.evaluateCoupled covers functions p readable) fun v => ?_
    exact steps.turnsCoupled name _ 0 _ fun index item =>
      execAllCoupled steps functions body (coversTurn covers name index _ item) inside included
  | inclusion p name =>
    simp only [Run.exec]
    cases present : includer with
    | none => exact .ofThrow _
    | some run => exact included run present name (by simp [Instruction.inclusions]) scopes
  | foreign kind => exact .ofThrow _

theorem execAllCoupled (steps : Stepwise host declared R) {includer : Includer}
    {scopes : List Scope} {bound : List String}
    (functions : List (String × Callable)) (is : List Instruction) (covers : Covers scopes bound)
    (wellScoped : Instruction.ScopedAll declared bound is)
    (included : ∀ run, includer = some run → ∀ name ∈ Instruction.inclusionsOf is, ∀ scopes,
      Coupled (R scopes) (run name) (run name)) :
    Coupled (R scopes) (Run.execAll host includer functions is)
      (Run.execAll host includer functions is) := by
  cases is with
  | nil => exact .ofPure ()
  | cons i is =>
    simp only [Run.execAll]
    refine .bind (steps.deadline scopes) fun _ => .bind ?_ fun _ => ?_
    · exact execCoupled steps functions i covers wellScoped.1 fun run here name member =>
        included run here name (List.mem_append_left _ member)
    · exact execAllCoupled steps functions is covers wellScoped.2 fun run here name member =>
        included run here name (List.mem_append_right _ member)

end

theorem executeCoupled (steps : Stepwise host declared R) {includer : Includer} {t : Template}
    (known : ∀ path ∈ t.dependencies, declared path)
    (wellScoped : Instruction.ScopedAll declared [] t.procedure.instructions)
    (included : ∀ run, includer = some run →
      ∀ name ∈ Instruction.inclusionsOf t.procedure.instructions, ∀ scopes,
        Coupled (R scopes) (run name) (run name)) :
    Coupled (R scopes) (Run.execute host includer t) (Run.execute host includer t) :=
  .bind (steps.requireCoupled known) fun _ =>
    steps.execAllCoupled _ _ (by simp [Covers]) wellScoped included

end Stepwise

/- A host whose callables give back their first argument, and a world in which nothing has happened. -/
def Host.still : Host where
  call _ args := .ok (args.headD .null)
  clock _ := .zero
  now := ⟨⟨1970, 1, 1⟩, .midnight⟩
  uuid := ""
  random a _ := a

def World.fresh : World := ⟨0, [], .empty true 0⟩

/- Lenient, and without a time limit. -/
def RenderOptions.unlimited : RenderOptions := { RenderOptions.standard with timeout := .whole 0 }

end Stencil
