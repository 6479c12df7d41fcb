import Stencil.Proofs.Interpretation

/-! The instructions of a template do what its tree means. What a render adds to its state, the
interpretation adds to its trace; the scopes that are open are the turns it is in. -/
namespace Stencil

open Stencil.Expr (Rooted)

namespace Turn

def scope (t : Turn) : Scope := Run.loopScope t.name t.index t.last t.item

theorem scopeLookup (t : Turn) (word : String) : t.scope.lookup word = t.value? word := by
  simp only [scope, Run.loopScope, value?, List.lookup_cons, List.lookup_nil]
  grind

end Turn

namespace RunState

/- The state after a trace, within the turns of loops. -/
def showing (base : RunState) (turns : List Turn) (t : Trace) : RunState :=
  ⟨{ base.frame with
      scopes := turns.map Turn.scope ++ base.frame.scopes, output := base.frame.output ++ t.text },
    { base.world with calls := t.calls ++ base.world.calls }⟩

theorem showingNothing (base : RunState) : base.showing [] ⟨"", []⟩ = base := by simp [showing]

end RunState

/- The trees that include no other template. -/
def Node.IncludeFree (n : Node) : Prop := ∀ p name, .inclusion p name ∉ n.all

/- A render that has looked up everything that `k` lists, and has no time limit. -/
structure Prepared (x : Setting) (k : Gathered) (base : RunState) : Prop where
  vars : base.frame.vars = x.vars
  options : base.frame.options = x.options
  scopes : base.frame.scopes = []
  unlimited : base.frame.deadline = none
  settled : ∀ path ∈ k.paths, Rooted path → base.frame.Settled x.host path

def boundBy (turns : List Turn) : List String := turns.flatMap fun t => loopNames t.name

theorem boundValue {turns : List Turn} {word : String} (member : word ∈ boundBy turns) :
    ∃ v, turns.findSome? (·.value? word) = some v := by
  obtain ⟨t, inside, named⟩ := List.mem_flatMap.mp member
  obtain ⟨v, found⟩ := loopScopeBinds t.index t.last t.item named
  rw [← Option.isSome_iff_exists, List.findSome?_isSome_iff]
  exact ⟨t, inside, by rw [← Turn.scopeLookup, Turn.scope, found, Option.isSome_some]⟩

theorem scopesFind (turns : List Turn) (word : String) :
    (turns.map Turn.scope).findSome? (·.lookup word) = turns.findSome? (·.value? word) := by
  simp [List.findSome?_map, Function.comp_def, Turn.scopeLookup]

namespace Prepared

variable {x : Setting} {k : Gathered} {base : RunState} {turns : List Turn}

abbrev Shows (base : RunState) (turns : List Turn) (t : Trace) (s : RunState) : Prop :=
  s = base.showing turns t

theorem acceptCoupled (result : Except ValueFault α) :
    Coupled (Shows base turns) (Setting.accept result) (Run.lift result) := by
  cases result with
  | ok a => exact .ofPure a
  | error fault => exact .ofThrow _

theorem readCoupled (prepared : Prepared x k base) {path : String} (rooted : Rooted path)
    (known : Path.root path ∈ boundBy turns ∨ path ∈ k.paths) :
    Coupled (Shows base turns) (x.read turns path) (Run.resolve x.host path) := by
  obtain ⟨rest, parts⟩ := rooted
  intro t s shows
  have scopes : s.frame.bound? (Path.root path) = turns.findSome? (·.value? (Path.root path)) := by
    rw [shows, ← scopesFind]
    simp [Frame.bound?, RunState.showing, prepared.scopes]
  rw [Run.resolveEnds, Setting.read, parts]
  dsimp only
  rw [scopes]
  cases bound : turns.findSome? (·.value? (Path.root path)) with
  | some v => exact acceptCoupled _ t s shows
  | none =>
    rcases known with inside | listed
    · obtain ⟨v, here⟩ := boundValue inside
      simp [bound] at here
    · obtain ⟨v, value, reads⟩ := prepared.settled path listed ⟨rest, parts⟩
      subst shows
      rw [← prepared.vars, ← prepared.options, value]
      have looked : Run.lookup x.host path (base.showing turns t) = .ok v (base.showing turns t) :=
        reads _ _ ⟨rfl, rfl, [], (List.append_nil _).symm⟩
      dsimp only
      rw [looked]
      exact .ok v rfl

theorem callCoupled (c : Callable) (args : List Value) :
    Coupled (Shows base turns) (x.call c args) (Run.call x.host c args) := by
  rintro t s rfl
  exact .ok _ rfl

theorem sayCoupled (text : String) : Coupled (Shows base turns) (Setting.say text) (Run.write text) := by
  rintro t s rfl
  exact .ok () (by simp [Shows, RunState.showing, String.append_assoc])

theorem evaluateCoupled (prepared : Prepared x k base) (p : Position) {e : Expr}
    (rooted : ∀ path ∈ e.paths, Rooted path) (notes : k.Notes x.registry (boundBy turns) e) :
    Coupled (Shows base turns) (x.evaluate turns p e) (Run.evaluate x.host k.functions p e) := by
  have agree : Expr.Agree (Shows base turns) ⟨x.read turns, x.registry.functions, x.call⟩
      (Run.machine x.host k.functions) e.paths e.functions := by
    refine ⟨fun path member => prepared.readCoupled (rooted path member) (notes.paths path member), ?_,
      callCoupled⟩
    intro name member
    obtain ⟨c, known, bound⟩ := notes.functions name member
    exact Eq.trans known bound.symm
  rw [Setting.evaluate, Run.evaluate]
  exact .adaptExcept _ (Expr.evalCoupled e agree)

theorem throughCoupled (p : Position) {calls : List FilterCall} {filters : List BoundFilter}
    (binds : Procedure.bindFilters x.registry p calls = .ok filters) (v : Value) :
    Coupled (Shows base turns) (x.through p calls v) (Run.applyFilters x.host p filters v) := by
  induction calls generalizing filters v with
  | nil =>
    cases binds
    exact .ofPure v
  | cons f fs ih =>
    rw [Procedure.bindFilters] at binds
    split at binds
    · simp at binds
    · rename_i c known
      obtain ⟨rest, bound, binds⟩ := boundOk binds
      cases binds
      simp only [Setting.through, known]
      refine .bind (callCoupled c (v :: f.args)) fun result => ?_
      cases result with
      | ok w => exact ih bound w
      | error fault => cases fault <;> exact .ofThrow _

/- The time is never looked at. -/
theorem timelessCoupled (prepared : Prepared x k base) {m : Telling Unit} {n : Run Unit}
    (inner : Coupled (Shows base turns) m n) :
    Coupled (Shows base turns) m (Run.checkDeadline x.host >>= fun _ => n) := by
  intro t s shows
  have unlimited : s.frame.deadline = none := by rw [shows]; exact prepared.unlimited
  simp only [bind, EStateM.bind, Run.checkDeadlineUnlimited x.host unlimited]
  exact inner t s shows

theorem turnCoupled (turn : Turn) {m : Telling Unit} {body : Run Unit}
    (inner : Coupled (Shows base (turn :: turns)) m body) :
    Coupled (Shows base turns) m (Run.within turn.scope body) := by
  intro t s shows
  have entered : s.entering turn.scope = base.showing (turn :: turns) t := by rw [shows]; rfl
  have ends := inner t _ entered
  generalize told : m t = a at ends
  generalize ran : body (s.entering turn.scope) = b at ends
  cases ends with
  | ok a after =>
    subst after
    rw [Run.withinOk ran (by simp [RunState.showing])]
    exact .ok a rfl
  | error e after =>
    subst after
    rw [Run.withinError ran (by simp [RunState.showing])]
    exact .error e rfl

theorem turnsCoupled (prepared : Prepared x k base) {f : Turn → Telling Unit} {body : Run Unit}
    (name : String) (last index : Nat) (items : List Value)
    (inner : ∀ turn : Turn, turn.name = name → Coupled (Shows base (turn :: turns)) (f turn) body) :
    Coupled (Shows base turns)
      (((items.zipIdx index).map fun (item, index) => Turn.mk name item index last).forM f)
      (Run.eachItem x.host name body last index items) := by
  induction items generalizing index with
  | nil => exact .ofPure ()
  | cons item items ih =>
    refine prepared.timelessCoupled ?_
    exact .bind (turnCoupled ⟨name, item, index, last⟩ (inner _ rfl)) fun _ => ih (index + 1)

mutual

theorem tellCoupled (prepared : Prepared x k base) (includer : Includer) {turns : List Turn} {n : Node}
    {i : Instruction} (translates : Procedure.Translates x.registry k (boundBy turns) n i)
    (plain : n.IncludeFree) :
    Coupled (Shows base turns) (x.tell n turns) (Run.exec x.host includer k.functions i) := by
  cases translates with
  | text =>
    simp only [Setting.tell, Run.exec]
    exact sayCoupled _
  | output parsed notes binds =>
    simp only [Setting.tell, Run.exec, parsed]
    refine .bind (prepared.evaluateCoupled _ (fun path => Output.parseRooted parsed) notes) fun v => ?_
    exact .bind (throughCoupled _ binds v.plain) fun w =>
      .bind (acceptCoupled _) fun text => sayCoupled text
  | conditional parsed notes first second =>
    simp only [Setting.tell, Run.exec, parsed]
    refine .bind (prepared.evaluateCoupled _ (fun path => Expr.parseRooted parsed) notes) fun v => ?_
    split
    · refine tellAllCoupled prepared includer first fun p name member => plain p name ?_
      simp [Node.all, member]
    · refine tellAllCoupled prepared includer second fun p name member => plain p name ?_
      simp [Node.all, member]
  | loop parsed notes inner =>
    simp only [Setting.tell, Run.exec, parsed]
    refine .bind (prepared.evaluateCoupled _ (fun path => Expr.parseRooted parsed) notes) fun v => ?_
    refine prepared.turnsCoupled _ _ 0 _ fun turn named => ?_
    subst named
    refine tellAllCoupled prepared includer inner fun p name member => plain p name ?_
    simp [Node.all, member]
  | @inclusion _ p name => exact absurd (by simp [Node.all]) (plain p name)

theorem tellAllCoupled (prepared : Prepared x k base) (includer : Includer) {turns : List Turn}
    {ns : List Node} {is : List Instruction}
    (translates : Procedure.TranslatesAll x.registry k (boundBy turns) ns is)
    (plain : ∀ p name, Node.inclusion p name ∉ Node.allOf ns) :
    Coupled (Shows base turns) (x.tellAll ns turns) (Run.execAll x.host includer k.functions is) := by
  cases translates with
  | nil => exact .ofPure ()
  | cons first others =>
    simp only [Setting.tellAll, Run.execAll]
    refine prepared.timelessCoupled ?_
    refine .bind (tellCoupled prepared includer first fun p name member => plain p name ?_) fun _ => ?_
    · simp [Node.allOf, member]
    · refine tellAllCoupled prepared includer others fun p name member => plain p name ?_
      simp [Node.allOf, member]

end

end Prepared

/- What a trace adds to the state of a render that has written nothing yet. -/
def RunState.telling (s : RunState) (t : Trace) : RunState :=
  ⟨{ s.frame with output := t.text }, { s.world with calls := t.calls ++ s.world.calls }⟩

theorem preparedRequired (registry : Registry) {host : Host} {k : Gathered} {vars : Value}
    {options : RenderOptions} {now : Binary64} {f : Frame} {w : World} {s : RunState}
    (lenient : options.strict.isOn = false) (unlimited : options.timeout.isPositive = false)
    (begun : Frame.start vars options now = .ok f)
    (required : Run.require host k.paths ⟨f, w⟩ = .ok () s) :
    Prepared ⟨host, registry, givenVars vars, options⟩ k s ∧ s.frame.output = "" := by
  rw [Frame.startUnlimited unlimited] at begun
  cases begun
  obtain ⟨looked, -, settled⟩ := Run.requireSettles lenient rfl (by simp [Frame.Faithful]) required
  obtain ⟨more, used, missing, same⟩ := looked
  have settled : ∀ path ∈ k.paths, Rooted path → s.frame.Settled host path :=
    fun path member ⟨_, parts⟩ => settled path member (by simp [parts])
  exact ⟨⟨by rw [same], by rw [same], by rw [same], by rw [same], settled⟩, by rw [same]⟩

variable {registry : Registry} {tree : Node} {c : Procedure.Compiled} {host : Host} {includer : Includer}
  {vars : Value} {options : RenderOptions} {now : Binary64} {f : Frame} {w : World} {s : RunState}

theorem executesTold (id : String) (ok : Procedure.compile registry tree = .ok c)
    (plain : tree.IncludeFree) (lenient : options.strict.isOn = false)
    (unlimited : options.timeout.isPositive = false) (begun : Frame.start vars options now = .ok f)
    (required : Run.require host c.dependencies ⟨f, w⟩ = .ok () s) :
    Ends (fun t s' => s' = s.telling t)
      (Setting.interpret ⟨host, registry, givenVars vars, options⟩ tree ⟨"", []⟩)
      (Run.execute host includer ⟨id, tree, c.procedure, c.dependencies⟩ ⟨f, w⟩) := by
  obtain ⟨p, children, k, rfl, paths, functions, translates⟩ := Procedure.compiled ok
  have required' := required
  rw [← paths] at required'
  obtain ⟨prepared, empty⟩ := preparedRequired registry lenient unlimited begun required'
  have executed : Run.execute host includer ⟨id, .root p children, c.procedure, c.dependencies⟩ ⟨f, w⟩ =
      Run.execAll host includer k.functions c.procedure.instructions s := by
    rw [functions]
    simp only [Run.execute, bind, EStateM.bind, required]
  have outermost : Procedure.TranslatesAll registry k (boundBy []) children c.procedure.instructions :=
    translates
  have ends := prepared.tellAllCoupled includer outermost
    (fun p name member => plain p name (by simp [Node.all, member])) ⟨"", []⟩ s
    s.showingNothing.symm
  rw [executed]
  refine ends.mono fun t s' shows => ?_
  rw [shows]
  simp [RunState.showing, RunState.telling, empty]

theorem runsAsInterpreted (id : String) (ok : Procedure.compile registry tree = .ok c)
    (plain : tree.IncludeFree) (lenient : options.strict.isOn = false)
    (unlimited : options.timeout.isPositive = false) (begun : Frame.start vars options now = .ok f)
    (required : Run.require host c.dependencies ⟨f, w⟩ = .ok () s) :
    Run.execute host includer ⟨id, tree, c.procedure, c.dependencies⟩ ⟨f, w⟩ =
      match Setting.interpret ⟨host, registry, givenVars vars, options⟩ tree ⟨"", []⟩ with
      | .ok _ t => .ok () (s.telling t)
      | .error e t => .error e (s.telling t) := by
  have ends : Ends (fun t s' => s' = s.telling t)
      (Setting.interpret ⟨host, registry, givenVars vars, options⟩ tree ⟨"", []⟩)
      (Run.execute host includer ⟨id, tree, c.procedure, c.dependencies⟩ ⟨f, w⟩) :=
    executesTold id ok plain lenient unlimited begun required
  generalize Setting.interpret _ tree ⟨"", []⟩ = told at ends
  generalize Run.execute host includer _ ⟨f, w⟩ = ran at ends
  cases ends with
  | ok a after => rw [after]
  | error e after => rw [after]

def sampleRegistry : Registry := ⟨[("same", .host "same")], [], 0⟩

def sampleTree : Node :=
  .root ⟨1, 1, 0⟩ [.text ⟨1, 1, 0⟩ "a", .loop ⟨1, 2, 1⟩ "x" "xs" [.output ⟨1, 14, 13⟩ "x | same",
    .conditional ⟨1, 27, 26⟩ "!x_last" [.text ⟨1, 38, 37⟩ ","] []]]

def sampleVars : Value := .map [(.str "xs", .list [.str "b", .str "c"])]

set_option maxRecDepth 4000 in
theorem runsAsInterpretedLoop : ∃ c f s, Procedure.compile sampleRegistry sampleTree = .ok c ∧
    sampleTree.IncludeFree ∧ Frame.start sampleVars .unlimited .zero = .ok f ∧
    Run.require .still c.dependencies ⟨f, .fresh⟩ = .ok () s ∧
    Run.execute .still none ⟨"", sampleTree, c.procedure, c.dependencies⟩ ⟨f, .fresh⟩ =
      .ok () (s.telling ⟨"ab,c", [(.host "same", [.str "c"]), (.host "same", [.str "b"])]⟩) := by
  have plain : sampleTree.IncludeFree := by simp [Node.IncludeFree, sampleTree, Node.all, Node.allOf]
  have unlimited : RenderOptions.unlimited.timeout.isPositive = false := by decide
  have list : Expr.parse "xs" = .ok (.path "xs") := by cbv
  have more : Expr.parse "!x_last" = .ok (.not (.path "x_last")) := by cbv
  have item : Output.parse "x | same" = .ok ⟨"x", .path "x", [⟨"same", [], 3⟩]⟩ := by cbv
  obtain ⟨c, ok, paths⟩ : ∃ c, Procedure.compile sampleRegistry sampleTree = .ok c ∧
      c.dependencies = ["xs"] := by
    simp only [sampleTree, Procedure.compile, Procedure.compileNodes, Procedure.compileNode,
      Procedure.compileExpr, list, more, item]
    exact ⟨_, rfl, rfl⟩
  obtain ⟨f, begun⟩ : ∃ f, Frame.start sampleVars .unlimited .zero = .ok f :=
    ⟨_, Frame.startUnlimited unlimited _ _⟩
  obtain ⟨s, required⟩ : ∃ s, Run.require .still c.dependencies ⟨f, .fresh⟩ = .ok () s := by
    rw [paths]
    cases begun
    exact ⟨_, rfl⟩
  have told : Setting.interpret ⟨.still, sampleRegistry, givenVars sampleVars, .unlimited⟩ sampleTree
      ⟨"", []⟩ = .ok () ⟨"ab,c", [(.host "same", [.str "c"]), (.host "same", [.str "b"])]⟩ := by
    simp only [sampleTree, Setting.interpret, Setting.tellAll, Setting.tell, list, more, item]
    rfl
  refine ⟨c, f, s, ok, plain, begun, required, ?_⟩
  have same := @runsAsInterpreted _ _ _ _ none _ _ _ _ _ _ "" ok plain rfl unlimited begun required
  rw [told] at same
  exact same

end Stencil
