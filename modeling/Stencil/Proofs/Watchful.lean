import Stencil.Proofs.Literals
import Stencil.Proofs.Watching

/-! What watched renders keep, where the values that go from step to step are of some kind: it is enough that the
lookup of a path and a single call keep it. Whole procedures and includes of any depth keep it then. -/
namespace Stencil

variable {α : Type}

/- All values that scopes bind. -/
def Binds (W : Value → Prop) (scopes : List Scope) : Prop := ∀ scope ∈ scopes, ∀ x ∈ scope, W x.2

/- No open scope binds the first part of a path. -/
def Free (scopes : List Scope) (path : String) : Prop :=
  ∀ root rest, Path.segments path = root :: rest → scopes.findSome? (·.lookup root) = none

/- What goes from step to step: a value of the kind, or none. -/
def Flows (W : Value → Prop) (v : Value) : Prop := v = .missing ∨ W v

/- A kind of values that a render makes only more values of, by itself. -/
structure Passable (W : Value → Prop) : Prop where
  null : W .null
  bool : ∀ b, W (.bool b)
  int : ∀ n, W (.int n)
  items : ∀ {v items}, W v → v.items? = some items → ∀ item ∈ items, W item
  walks : ∀ {v parts u}, W v → Path.walk v parts = .ok u → Flows W u

/- The values that stand in an instruction itself. -/
def Instruction.Holds (W : Value → Prop) : Instruction → Prop
  | .text _ | .inclusion _ _ | .foreign _ => True
  | .emit _ _ e filters => (∀ v ∈ e.literals, W v) ∧ ∀ f ∈ filters, ∀ v ∈ f.args, W v
  | .branch _ e _ _ | .iterate _ _ e _ => ∀ v ∈ e.literals, W v

def Template.Holds (W : Value → Prop) (t : Template) : Prop :=
  ∀ i ∈ Instruction.allOf t.procedure.instructions, i.Holds W

/- Two states of which only the scopes, what was written and noted, and the clock may differ. -/
structure RunState.Like (s t : RunState) : Prop where
  vars : t.frame.vars = s.frame.vars
  options : t.frame.options = s.frame.options
  handled : t.frame.handled = s.frame.handled
  calls : t.world.calls = s.world.calls
  cache : t.world.cache = s.world.cache

/- What a watched render keeps, as long as it succeeds and afterwards, where the values in it are of a kind. -/
structure Watchful (host : Host) (W : Value → Prop) (P E : List Scope → Watched → Prop) : Prop extends Passable W where
  scopes : ∀ {scopes w}, P scopes w → w.run.frame.scopes = scopes
  left : ∀ {scopes w}, E scopes w → w.run.frame.scopes = scopes
  fails : ∀ {scopes w}, P scopes w → E scopes w
  moves : ∀ {scopes w s}, P scopes w → w.run.Like s → P s.frame.scopes (w.moved s)
  leaves : ∀ {scopes w s}, E scopes w → w.run.Like s → E s.frame.scopes (w.moved s)
  call : ∀ scopes c args, (∀ v ∈ args, W v) → Mirrors (P scopes) (E scopes) (fun r => ∀ v, r = .ok v → W v)
    (Watched.call host c args) (Run.call host c args)
  lookup : ∀ {scopes path}, Free scopes path →
    Mirrors (P scopes) (E scopes) (Flows W) (Watched.lookup host path) (Run.lookup host path)

namespace Watchful

variable {host : Host} {W : Value → Prop} {P E : List Scope → Watched → Prop} {scopes : List Scope}
  {functions : List (String × Callable)}

theorem framed (watchful : Watchful host W P E) {f : Frame → Frame}
    (like : ∀ s : RunState, s.Like { s with frame := f s.frame }) (same : ∀ g, (f g).scopes = g.scopes) :
    Mirrors (P scopes) (E scopes) (fun _ => True) (Watched.carry (Run.modifyFrame f)) (Run.modifyFrame f) := by
  intro w before
  have after := watchful.moves before (like w.run)
  rw [same, watchful.scopes before] at after
  exact .ok trivial after

/- What is asked of the frame is asked of the same frame. -/
theorem asks {V : α → Prop} {f : Frame → Watching α} {g : Frame → Run α}
    (next : ∀ w, P scopes w → Shows (P scopes) (E scopes) V (f w.run.frame w) (g w.run.frame w.run)) :
    Mirrors (P scopes) (E scopes) V (Watched.carry Run.frame >>= f) (Run.frame >>= g) := next

theorem lifts (watchful : Watchful host W P E) {V : α → Prop} {result : Except ValueFault α}
    (holds : ∀ a, result = .ok a → V a) :
    Mirrors (P scopes) (E scopes) V (Watched.carry (Run.lift result)) (Run.lift result) := by
  intro w before
  cases result with
  | ok a => exact .ok (holds a rfl) before
  | error f => exact .error (watchful.fails before)

theorem deadline (watchful : Watchful host W P E) :
    Mirrors (P scopes) (E scopes) (fun _ => True) (Watched.carry (Run.checkDeadline host)) (Run.checkDeadline host) := by
  intro w before
  have ticked (reads : Nat) : P scopes (w.moved { w.run with world := { w.run.world with reads := reads } }) := by
    have after := watchful.moves before (s := { w.run with world := { w.run.world with reads := reads } })
      ⟨rfl, rfl, rfl, rfl, rfl⟩
    rwa [watchful.scopes before] at after
  obtain ⟨reads, ended | ⟨fault, ended⟩⟩ := Run.checkDeadlineEnds host w.run
  · simp only [Watched.carry, ended]
    exact .ok trivial (ticked reads)
  · simp only [Watched.carry, ended]
    exact .error (watchful.fails (ticked reads))

theorem resolve (watchful : Watchful host W P E) (bound : Binds W scopes) (path : String) :
    Mirrors (P scopes) (E scopes) (Flows W) (Watched.resolve host path) (Run.resolve host path) := by
  rw [Watched.resolve, Run.resolve]
  cases parts : Path.segments path with
  | nil => exact .ofPure (.inl rfl)
  | cons root rest =>
    refine asks fun w before => ?_
    rw [Frame.bound?, watchful.scopes before]
    cases found : scopes.findSome? (·.lookup root) with
    | some v =>
      have known : W v := by
        obtain ⟨scope, inside, here⟩ := List.exists_of_findSome?_eq_some found
        obtain ⟨front, back, rfl, -⟩ := List.lookup_eq_some_iff.mp here
        exact bound _ inside (root, v) (by simp)
      exact watchful.lifts (fun u walked => watchful.walks known walked) w before
    | none =>
      have free : Free scopes path := by
        intro root' rest' parts'
        cases parts.symm.trans parts'
        exact found
      exact watchful.lookup free w before

theorem answered (watchful : Watchful host W P E) (name : String) {result : Except CallFault Value}
    (holds : ∀ v, result = .ok v → W v) :
    Mirrors (P scopes) (E scopes) (Flows W) (Expr.called name result) (Expr.called name result) := by
  cases result with
  | ok v => exact .ofPure (.inr (holds v rfl))
  | error fault => exact .ofThrow (fun _ => watchful.fails) _

theorem compared (watchful : Watchful host W P E) (result : Except ValueFault Bool) :
    Mirrors (P scopes) (E scopes) (Flows W) (Expr.compared result) (Expr.compared result) := by
  cases result with
  | ok b => exact .ofPure (.inr (watchful.bool b))
  | error fault =>
    simp only [Expr.compared]
    split
    · exact .ofThrow (fun _ => watchful.fails) _
    · exact .ofThrow (fun _ => watchful.fails) _

/- No call is given a value that is missing. -/
theorem plainHolds (watchful : Watchful host W P E) {v : Value} (flows : Flows W v) : W v.plain := by
  rcases flows with rfl | holds
  · exact watchful.null
  · cases v with
    | missing => exact watchful.null
    | _ => exact holds

mutual

theorem eval (watchful : Watchful host W P E) (bound : Binds W scopes) (e : Expr) (literals : ∀ v ∈ e.literals, W v) :
    Mirrors (P scopes) (E scopes) (Flows W) (e.eval (Watched.machine host functions))
      (e.eval (Run.machine host functions)) := by
  cases e with
  | literal v => exact .ofPure (.inr (literals v (by simp [Expr.literals])))
  | path p => exact (watchful.resolve bound p).adaptExcept _
  | call name args =>
    simp only [Expr.eval, Watched.machine, Run.machine]
    cases functions.lookup name with
    | none => exact .ofThrow (fun _ => watchful.fails) _
    | some c =>
      refine .bind (evalAll watchful bound args literals) fun values flow => ?_
      have plain : ∀ v ∈ values.map Value.plain, W v := by
        intro u member
        obtain ⟨v, inside, rfl⟩ := List.mem_map.mp member
        exact watchful.plainHolds (flow v inside)
      exact .bind ((watchful.call scopes c _ plain).adaptExcept _) fun result holds => watchful.answered name holds
  | group e =>
    simp only [Expr.eval]
    exact eval watchful bound e literals
  | not e =>
    simp only [Expr.eval]
    exact .bind (eval watchful bound e literals) fun v _ => .ofPure (.inr (watchful.bool _))
  | and left right =>
    obtain ⟨first, second⟩ := List.forall_mem_append.mp literals
    simp only [Expr.eval]
    refine .bind (eval watchful bound left first) fun v flows => ?_
    split
    · exact eval watchful bound right second
    · exact .ofPure flows
  | or left right =>
    obtain ⟨first, second⟩ := List.forall_mem_append.mp literals
    simp only [Expr.eval]
    refine .bind (eval watchful bound left first) fun v flows => ?_
    split
    · exact .ofPure flows
    · exact eval watchful bound right second
  | compare relation left right =>
    obtain ⟨first, second⟩ := List.forall_mem_append.mp literals
    simp only [Expr.eval]
    exact .bind (eval watchful bound left first) fun a _ => .bind (eval watchful bound right second) fun b _ =>
      watchful.compared _

theorem evalAll (watchful : Watchful host W P E) (bound : Binds W scopes) (es : List Expr)
    (literals : ∀ v ∈ Expr.literalsOf es, W v) :
    Mirrors (P scopes) (E scopes) (fun values => ∀ v ∈ values, Flows W v)
      (Expr.evalAll (Watched.machine host functions) es) (Expr.evalAll (Run.machine host functions) es) := by
  cases es with
  | nil => exact .ofPure (by simp)
  | cons e es =>
    obtain ⟨first, others⟩ := List.forall_mem_append.mp literals
    simp only [Expr.evalAll]
    exact .bind (eval watchful bound e first) fun v flows => .bind (evalAll watchful bound es others) fun vs flow =>
      .ofPure (List.forall_mem_cons.mpr ⟨flows, flow⟩)

end

theorem evaluate (watchful : Watchful host W P E) (bound : Binds W scopes) (p : Position) {e : Expr}
    (literals : ∀ v ∈ e.literals, W v) : Mirrors (P scopes) (E scopes) (Flows W)
      (Watched.evaluate host functions p e) (Run.evaluate host functions p e) :=
  (watchful.eval bound e literals).adaptExcept _

theorem filters (watchful : Watchful host W P E) (p : Position) (fs : List BoundFilter)
    (args : ∀ f ∈ fs, ∀ v ∈ f.args, W v) {v : Value} (holds : W v) :
    Mirrors (P scopes) (E scopes) W (Watched.applyFilters host p fs v) (Run.applyFilters host p fs v) := by
  induction fs generalizing v with
  | nil => exact .ofPure holds
  | cons f fs ih =>
    obtain ⟨first, others⟩ := List.forall_mem_cons.mp args
    refine .bind (watchful.call scopes f.callable _ (List.forall_mem_cons.mpr ⟨holds, first⟩)) fun result answer => ?_
    cases result with
    | ok v => exact ih others (answer v rfl)
    | error fault =>
      cases fault with
      | template | value | other => exact .ofThrow (fun _ => watchful.fails) _

theorem require (watchful : Watchful host W P E) (bound : Binds W scopes) (paths : List String) :
    Mirrors (P scopes) (E scopes) (fun _ => True) (Watched.require host paths) (Run.require host paths) := by
  induction paths with
  | nil => exact .ofPure trivial
  | cons path paths ih =>
    refine .bind (watchful.resolve bound path) fun v _ => ?_
    split
    · refine .bind (watchful.framed (fun _ => ⟨rfl, rfl, rfl, rfl, rfl⟩) fun _ => rfl) fun _ _ => ?_
      refine asks fun w before => ?_
      split
      · exact .error (watchful.fails before)
      · exact ih w before
    · exact .bind (watchful.framed (fun _ => ⟨rfl, rfl, rfl, rfl, rfl⟩) fun _ => rfl) fun _ _ => ih

theorem within (watchful : Watchful host W P E) {scope : Scope} {body : Watching Unit} {body' : Run Unit}
    (inner : Mirrors (P (scope :: scopes)) (E (scope :: scopes)) (fun _ => True) body body') :
    Mirrors (P scopes) (E scopes) (fun _ => True) (Watched.carrier.within scope body) (Run.within scope body') := by
  intro w before
  have entered : P (scope :: scopes) (w.moved (w.run.entering scope)) := by
    have inside : (w.run.entering scope).frame.scopes = scope :: scopes := by
      rw [← watchful.scopes before]
      rfl
    have after := watchful.moves before (s := w.run.entering scope) ⟨rfl, rfl, rfl, rfl, rfl⟩
    rwa [inside] at after
  have popped {v : Watched} (opened : v.run.frame.scopes = scope :: scopes) :
      Run.popScope v.run = .ok () v.run.leaving ∧ v.run.leaving.frame.scopes = scopes := by
    refine ⟨Run.popScopeOpen (by simp [opened]), ?_⟩
    rw [RunState.leaving, opened]
    rfl
  have beside := inner _ entered
  have begun : Watched.carrier.within scope body w =
      tryFinally body (Watched.carry Run.popScope) (w.moved (w.run.entering scope)) := rfl
  have begun' : Run.within scope body' w.run = tryFinally body' Run.popScope (w.run.entering scope) := rfl
  rw [begun, begun']
  simp only [tryFinally, tryFinally', Functor.map, EStateM.map]
  have start : (w.moved (w.run.entering scope)).run = w.run.entering scope := rfl
  rw [start] at beside
  generalize body (w.moved (w.run.entering scope)) = x at beside ⊢
  generalize body' (w.run.entering scope) = y at beside ⊢
  cases beside with
  | @ok a v holds kept =>
    obtain ⟨ended, outside⟩ := popped (watchful.scopes kept)
    have closed := watchful.moves kept (s := v.run.leaving) ⟨rfl, rfl, rfl, rfl, rfl⟩
    rw [outside] at closed
    simp only [Watched.carry, ended]
    exact .ok trivial closed
  | @error f v left =>
    obtain ⟨ended, outside⟩ := popped (watchful.left left)
    have closed := watchful.leaves left (s := v.run.leaving) ⟨rfl, rfl, rfl, rfl, rfl⟩
    rw [outside] at closed
    simp only [Watched.carry, ended]
    exact .error closed

theorem turns (watchful : Watchful host W P E) (bound : Binds W scopes) {body : Watching Unit} {body' : Run Unit}
    (name : String) (last index : Nat) (items : List Value) (holds : ∀ item ∈ items, W item)
    (inner : ∀ scopes, Binds W scopes → Mirrors (P scopes) (E scopes) (fun _ => True) body body') :
    Mirrors (P scopes) (E scopes) (fun _ => True) (Watched.carrier.eachItem host name body last index items)
      (Run.eachItem host name body' last index items) := by
  induction items generalizing index with
  | nil => exact .ofPure trivial
  | cons item items ih =>
    obtain ⟨first, others⟩ := List.forall_mem_cons.mp holds
    have turn : ∀ x ∈ Run.loopScope name index last item, W x.2 := by
      simp only [Run.loopScope, List.forall_mem_cons]
      exact ⟨first, first, watchful.int _, watchful.bool _, watchful.bool _, by simp⟩
    refine .bind watchful.deadline fun _ _ => .bind (watchful.within ?_) fun _ _ => ih (index + 1) others
    exact inner _ (List.forall_mem_cons.mpr ⟨turn, bound⟩)

/- The ways to include, watched or not, where they go together. -/
inductive Hooked (P E : List Scope → Watched → Prop) (W : Value → Prop) : Watched.Hook → Includer → Prop where
  | none : Hooked P E W none none
  | some {run : String → Watching Unit} {run' : String → Run Unit}
      (both : ∀ name scopes, Binds W scopes → Mirrors (P scopes) (E scopes) (fun _ => True) (run name) (run' name)) :
      Hooked P E W (some run) (some run')

mutual

theorem exec (watchful : Watchful host W P E) {hook : Watched.Hook} {includer : Includer}
    (hooked : Hooked P E W hook includer) {scopes : List Scope} (bound : Binds W scopes) (i : Instruction)
    (holds : ∀ j ∈ i.all, j.Holds W) : Mirrors (P scopes) (E scopes) (fun _ => True)
      (Watched.exec host hook functions i) (Run.exec host includer functions i) := by
  have here := holds i i.memAll
  cases i with
  | text s =>
    simp only [Watched.exec, Run.exec]
    exact watchful.framed (fun _ => ⟨rfl, rfl, rfl, rfl, rfl⟩) fun _ => rfl
  | emit p source e filters =>
    simp only [Watched.exec, Run.exec]
    refine .bind (watchful.evaluate bound p here.1) fun v flows => ?_
    refine .bind (watchful.filters p filters here.2 (watchful.plainHolds flows)) fun u _ => ?_
    refine .bind (V := fun _ => True) (watchful.lifts fun _ _ => trivial) fun text _ => ?_
    exact watchful.framed (fun _ => ⟨rfl, rfl, rfl, rfl, rfl⟩) fun _ => rfl
  | branch p e thenPart otherwise =>
    simp only [Instruction.all, List.forall_mem_cons, List.forall_mem_append] at holds
    simp only [Watched.exec, Run.exec]
    refine .bind (watchful.evaluate bound p here) fun v _ => ?_
    split
    · exact execAll watchful hooked bound thenPart holds.2.1
    · exact execAll watchful hooked bound otherwise holds.2.2
  | iterate p name e body =>
    simp only [Instruction.all, List.forall_mem_cons] at holds
    simp only [Watched.exec, Run.exec]
    refine .bind (watchful.evaluate bound p here) fun v flows => ?_
    refine watchful.turns bound name _ 0 _ ?_ fun scopes bound => execAll watchful hooked bound body holds.2
    cases sequence : v.items? with
    | none => simp
    | some items =>
      rcases flows with rfl | known
      · cases sequence
      · exact watchful.items known sequence
  | inclusion p name =>
    simp only [Watched.exec, Run.exec]
    cases hooked with
    | none => exact .ofThrow (fun _ => watchful.fails) _
    | some both => exact both name scopes bound
  | foreign kind =>
    simp only [Watched.exec, Run.exec]
    exact fun w before => .error (watchful.fails before)

theorem execAll (watchful : Watchful host W P E) {hook : Watched.Hook} {includer : Includer}
    (hooked : Hooked P E W hook includer) {scopes : List Scope} (bound : Binds W scopes) (is : List Instruction)
    (holds : ∀ j ∈ Instruction.allOf is, j.Holds W) : Mirrors (P scopes) (E scopes) (fun _ => True)
      (Watched.execAll host hook functions is) (Run.execAll host includer functions is) := by
  cases is with
  | nil => exact .ofPure trivial
  | cons i is =>
    simp only [Instruction.allOf, List.forall_mem_append] at holds
    simp only [Watched.execAll, Run.execAll]
    exact .bind watchful.deadline fun _ _ => .bind (exec watchful hooked bound i holds.1) fun _ _ =>
      execAll watchful hooked bound is holds.2

end

theorem execute (watchful : Watchful host W P E) {hook : Watched.Hook} {includer : Includer}
    (hooked : Hooked P E W hook includer) (bound : Binds W scopes) {t : Template} (holds : t.Holds W) :
    Mirrors (P scopes) (E scopes) (fun _ => True) (Watched.execute host hook t) (Run.execute host includer t) :=
  .bind (watchful.require bound _) fun _ _ => watchful.execAll hooked bound _ holds

theorem inclusion {e : Engine} (watchful : Watchful e.host W P E)
    (loads : ∀ scopes text, Mirrors (P scopes) (E scopes) (Template.Holds W) (Watched.carry (e.load text)) (e.load text))
    (remaining : Nat) (name : String) (scopes : List Scope) (bound : Binds W scopes) :
    Mirrors (P scopes) (E scopes) (fun _ => True) (Watched.inclusion e remaining name) (e.inclusion remaining name) := by
  induction remaining generalizing name scopes with
  | zero => exact .ofThrow (fun _ => watchful.fails) _
  | succ remaining ih =>
    simp only [Watched.inclusion, Engine.inclusion]
    cases e.source name with
    | error fault => exact .ofThrow (fun _ => watchful.fails) _
    | ok text => exact .bind (loads scopes text) fun t holds => watchful.execute (.some ih) bound holds

end Watchful

namespace Watchful

variable {host : Host} {W : Value → Prop} {P E : List Scope → Watched → Prop} {hook : Watched.Hook}
  {includer : Includer} {t : Template} {vars : Value} {options : RenderOptions} {w : World}
  {reached : List Sight → List (Callable × List Value) → Prop}

theorem render (watchful : Watchful host W P E) (hooked : Hooked P E W hook includer) (holds : t.Holds W)
    (starts : ∀ f, Frame.start vars options (w.tick host).1 = .ok f → P [] ⟨⟨f, (w.tick host).2⟩, []⟩)
    (unseen : reached [] w.calls) (shown : ∀ v, E [] v → reached v.log v.run.world.calls) :
    t.Watches host hook vars options w includer reached := by
  cases begun : Frame.start vars options (w.tick host).1 with
  | error f =>
    have same : t.watch host hook vars options w = t.render host includer vars options w := by
      simp only [Template.watch, Template.render, Template.begin, begun, Except.map]
    have sameStrictly : t.watchStrictly host hook vars options w = t.renderStrictly host includer vars options w := by
      simp only [Template.watchStrictly, Template.renderStrictly, Template.begin, begun, Except.map]
    refine ⟨same, sameStrictly, ?_, ?_⟩
    · rw [← same]
      simp only [Template.watch, Template.sights, begun]
      exact unseen
    · rw [← sameStrictly]
      simp only [Template.watchStrictly, Template.sights, begun]
      exact unseen
  | ok f =>
    have nothing : Binds W [] := by simp [Binds]
    have whole : Mirrors (P []) (E []) (fun _ => True)
        (do Watched.execute host hook t; Watched.carry (Run.checkDeadline host))
        (do Run.execute host includer t; Run.checkDeadline host) :=
      .bind (watchful.execute hooked nothing holds) fun _ _ => watchful.deadline
    obtain ⟨ended, left⟩ := (whole _ (starts f begun)).ends fun _ => watchful.fails
    have same : t.watch host hook vars options w = t.render host includer vars options w := by
      rw [Template.renderEnds begun, ← ended]
      simp only [Template.watch, begun, Template.watched]
    have sameStrictly : t.watchStrictly host hook vars options w = t.renderStrictly host includer vars options w := by
      rw [Template.renderStrictlyEnds begun, ← ended]
      simp only [Template.watchStrictly, begun, Template.watched]
    refine ⟨same, sameStrictly, ?_, ?_⟩
    · rw [← same]
      simp only [Template.watch, Template.sights, begun, Template.concludedCalls]
      exact shown _ left
    · rw [← sameStrictly]
      simp only [Template.watchStrictly, Template.sights, begun, Template.concludedStrictlyCalls]
      exact shown _ left

end Watchful

/- What holds of the renders of every template that a text compiles to or that was kept holds of the render of the
text. -/
theorem Engine.watches {e : Engine} {text : String} {vars : Value} {options : RenderOptions} {w : World}
    {reached : List Sight → List (Callable × List Value) → Prop} (unseen : reached [] w.calls)
    (runs : ∀ p cache, e.process text true w.cache = (.ok p, cache) →
      p.template.Watches e.host (Watched.hook e) vars options { w with cache := cache } e.includer reached) :
    e.Watches text vars options w reached := by
  rcases processed : e.process text true w.cache with ⟨result, cache⟩
  cases result with
  | error fault =>
    refine ⟨?_, ?_⟩
    · simp only [watch, render, processed]
    · simpa only [sights, render, processed] using unseen
  | ok p =>
    obtain ⟨same, -, seen, -⟩ := runs p cache processed
    refine ⟨?_, ?_⟩
    · simpa only [watch, render, processed] using same
    · simpa only [sights, render, processed] using seen

end Stencil
