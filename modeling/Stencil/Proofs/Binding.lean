import Stencil.Proofs.Escapes
import Stencil.Proofs.Simulation

/-! Names are bound when a template is compiled. What the registry becomes afterwards makes no difference: every call
finds its callable in the procedure, and nothing is called but what the registry had then. -/
namespace Stencil

namespace Expr

mutual

/- An expression with those inside it, to any depth. -/
def all (e : Expr) : List Expr :=
  e :: match e with
    | .literal _ | .path _ => []
    | .call _ args => allOf args
    | .group e | .not e => all e
    | .and l r | .or l r | .compare _ l r => all l ++ all r
termination_by structural e

def allOf (es : List Expr) : List Expr :=
  match es with
  | [] => []
  | e :: es => all e ++ allOf es
termination_by structural es

end

mutual

/- The functions of an expression are those of all calls in it. -/
theorem functionsCalled (e : Expr) {name : String} : name ∈ e.functions ↔ ∃ args, .call name args ∈ e.all := by
  cases e with
  | literal | path => simp [functions, all]
  | call other args =>
    simp only [functions, all, List.mem_cons, functionsOfCalled args, Expr.call.injEq]
    grind
  | group e | not e => simp [functions, all, functionsCalled e]
  | and l r | or l r | compare _ l r =>
    simp only [functions, all, List.mem_append, List.mem_cons, functionsCalled l, functionsCalled r]
    grind

theorem functionsOfCalled (es : List Expr) {name : String} :
    name ∈ functionsOf es ↔ ∃ args, .call name args ∈ allOf es := by
  cases es with
  | nil => simp [functionsOf, allOf]
  | cons e es =>
    simp only [functionsOf, allOf, List.mem_append, functionsCalled e, functionsOfCalled es]
    grind

end

end Expr

/- The names of filters or of functions that a node writes. -/
def Node.Writes (role : Role) (name : String) : Node → Prop
  | .output _ source => ∃ o, Output.parse source = .ok o ∧
      match role with
      | .filter => ∃ f ∈ o.filters, f.name = name
      | .function => name ∈ o.expression.functions
  | .conditional _ source _ _ | .loop _ _ source _ =>
    role = .function ∧ ∃ e, Expr.parse source = .ok e ∧ name ∈ e.functions
  | _ => False

def Node.Names (tree : Node) (role : Role) (name : String) : Prop := ∃ n ∈ tree.all, n.Writes role name

/- The registry has a callable under a name that the tree writes. -/
def Provided (env : Registry) (tree : Node) (c : Callable) : Prop :=
  ∃ role name, tree.Names role name ∧ env.get? role name = some c

/- Every call in an expression finds what the registry has under its name. -/
def Expr.Resolved (env : Registry) (tree : Node) (functions : List (String × Callable)) (e : Expr) : Prop :=
  ∀ name args, .call name args ∈ e.all → tree.Names .function name ∧
    ∃ c, env.get? .function name = some c ∧ functions.lookup name = some c

/- Whatever an instruction itself refers to is there; includes come from the tree. -/
def Instruction.Resolved (env : Registry) (tree : Node) (functions : List (String × Callable)) :
    Instruction → Prop
  | .text _ => True
  | .emit _ _ e filters => e.Resolved env tree functions ∧
      ∀ f ∈ filters, tree.Names .filter f.name ∧ env.get? .filter f.name = some f.callable
  | .branch _ e _ _ | .iterate _ _ e _ => e.Resolved env tree functions
  | .inclusion p name => .inclusion p name ∈ tree.all
  | .foreign _ => False

namespace Procedure

variable {env : Registry} {tree : Node} {k : Gathered}

theorem notesResolved {bound : List String} {e : Expr} (notes : Gathered.Notes env bound k e)
    (written : ∀ name ∈ e.functions, tree.Names .function name) : e.Resolved env tree k.functions := by
  intro name args here
  have listed := e.functionsCalled.mpr ⟨args, here⟩
  exact ⟨written name listed, notes.functions name listed⟩

theorem filtersBound {p : Position} {calls : List FilterCall} {filters : List BoundFilter}
    (binds : bindFilters env p calls = .ok filters) :
    ∀ f ∈ filters, (∃ g ∈ calls, g.name = f.name) ∧ env.get? .filter f.name = some f.callable := by
  induction calls generalizing filters with
  | nil =>
    cases binds
    simp
  | cons g calls ih =>
    rw [bindFilters] at binds
    split at binds
    · cases binds
    · rename_i c known
      obtain ⟨rest, others, binds⟩ := boundOk binds
      cases binds
      intro f member
      rcases List.mem_cons.mp member with rfl | later
      · exact ⟨⟨g, by simp, rfl⟩, known⟩
      · obtain ⟨⟨h, inside, same⟩, found⟩ := ih others f later
        exact ⟨⟨h, List.mem_cons_of_mem _ inside, same⟩, found⟩

mutual

theorem translatesResolved {bound : List String} {n : Node} {i : Instruction} (translates : Translates env k bound n i)
    (inside : ∀ m ∈ n.all, m ∈ tree.all) : ∀ j ∈ i.all, j.Resolved env tree k.functions := by
  have here : n ∈ tree.all := inside n (by cases n <;> simp [Node.all])
  cases translates with
  | text => simp [Instruction.all, Instruction.Resolved]
  | output parsed notes binds =>
    have resolved := notesResolved notes fun name member => ⟨_, here, _, parsed, member⟩
    simp only [Instruction.all, List.mem_singleton, forall_eq]
    refine ⟨resolved, fun f member => ?_⟩
    obtain ⟨written, found⟩ := filtersBound binds f member
    exact ⟨⟨_, here, _, parsed, written⟩, found⟩
  | conditional parsed notes first second =>
    have resolved := notesResolved notes fun name member => ⟨_, here, rfl, _, parsed, member⟩
    refine List.forall_mem_cons.mpr ⟨resolved, List.forall_mem_append.mpr ⟨?_, ?_⟩⟩
    · exact translatesAllResolved first fun m member => inside m (by simp [Node.all, member])
    · exact translatesAllResolved second fun m member => inside m (by simp [Node.all, member])
  | loop parsed notes inner =>
    have resolved := notesResolved notes fun name member => ⟨_, here, rfl, _, parsed, member⟩
    refine List.forall_mem_cons.mpr ⟨resolved, ?_⟩
    exact translatesAllResolved inner fun m member => inside m (by simp [Node.all, member])
  | inclusion => simpa [Instruction.all, Instruction.Resolved] using here

theorem translatesAllResolved {bound : List String} {ns : List Node} {is : List Instruction}
    (translates : TranslatesAll env k bound ns is) (inside : ∀ m ∈ Node.allOf ns, m ∈ tree.all) :
    ∀ j ∈ Instruction.allOf is, j.Resolved env tree k.functions := by
  cases translates with
  | nil => simp [Instruction.allOf]
  | cons first others =>
    refine List.forall_mem_append.mpr ⟨?_, ?_⟩
    · exact translatesResolved first fun m member => inside m (by simp [Node.allOf, member])
    · exact translatesAllResolved others fun m member => inside m (by simp [Node.allOf, member])

end

/- What was compiled refers to nothing that is not there, in any position. -/
theorem compiledResolved {c : Compiled} (ok : compile env tree = .ok c) :
    ∀ i ∈ Instruction.allOf c.procedure.instructions, i.Resolved env tree c.procedure.functions := by
  obtain ⟨p, children, k, rfl, -, functions, all⟩ := compiled ok
  rw [← functions]
  exact translatesAllResolved all fun m member => by simp [Node.all, member]

end Procedure

/- Failures of names that nothing stands for. -/
inductive Reason.Unresolved : Reason → Prop where
  | call (name expression : String) : Unresolved (.evaluation ("Unknown function: " ++ name) expression)
  | function (name : String) : Unresolved (.unknownFunction name)
  | instruction (kind : String) : Unresolved (.unknownInstruction kind)

/- Such a failure is one that a callable has raised itself. -/
def Raised (host : Host) (named : Callable → Prop) (f : Failure) : Prop :=
  ∀ e, f = .template e → e.reason.Unresolved → ∃ c args, named c ∧ host.apply c args = .error (.template e)

def Handler (handlers : Value) (c : Callable) : Prop := ∃ path, Path.under handlers path = .ok (.callable c)

/- A state of a render that has called nothing but what is named, and handlers. -/
structure Calling (named : Callable → Prop) (handlers : Value) (earlier : List (Callable × List Value))
    (scopes : List Scope) (s : RunState) : Prop where
  scopes : s.frame.scopes = scopes
  given : s.frame.options.handlers = handlers
  calls : ∃ made, s.world.calls = made ++ earlier ∧ ∀ call ∈ made, named call.1 ∨ Handler handlers call.1

/- Two texts differ if they begin differently. -/
theorem beginsApart {a b x y : String} (n : Nat) (first : n ≤ a.toList.length) (second : n ≤ b.toList.length)
    (differ : a.toList.take n ≠ b.toList.take n) : a ++ x ≠ b ++ y := by
  intro same
  have chars := congrArg (fun s => s.toList.take n) same
  simp only [String.toList_append] at chars
  rw [List.take_append_of_le_length first, List.take_append_of_le_length second] at chars
  exact differ chars

namespace Calling

variable {host : Host} {named : Callable → Prop} {handlers : Value} {earlier : List (Callable × List Value)}
  {scopes : List Scope} {s : RunState}

theorem more (calling : Calling named handlers earlier scopes s) {c : Callable} (args : List Value)
    (allowed : named c ∨ Handler handlers c) : Calling named handlers earlier scopes (s.calling c args) := by
  obtain ⟨shut, same, made, calls, fits⟩ := calling
  exact ⟨shut, same, (c, args) :: made, congrArg ((c, args) :: ·) calls, List.forall_mem_cons.mpr ⟨allowed, fits⟩⟩

theorem keeping : Keeping host (Raised host named) (fun text => ∀ name, text ≠ "Unknown function: " ++ name) named
    (Calling named handlers earlier) where
  scopes calling := calling.scopes
  entering scope calling := ⟨congrArg (scope :: ·) calling.scopes, calling.given, calling.calls⟩
  leaving calling := ⟨congrArg List.tail calling.scopes, calling.given, calling.calls⟩
  writing _ calling := ⟨calling.scopes, calling.given, calling.calls⟩
  finding _ calling := ⟨calling.scopes, calling.given, calling.calls⟩
  lacking _ calling := ⟨calling.scopes, calling.given, calling.calls⟩
  handling _ _ calling := ⟨calling.scopes, calling.given, calling.calls⟩
  ticking calling := ⟨calling.scopes, calling.given, calling.calls⟩
  calling known args calling := calling.more args (.inl known)
  handled found args calling := calling.more args (.inr ⟨_, calling.given ▸ found⟩)
  own := by
    rintro ⟨reason, line, column⟩ own _ ⟨⟩ unresolved
    cases unresolved <;> cases own
  late _ _ := by
    rintro _ ⟨⟩ unresolved
    cases unresolved
  raised known applied := by
    rintro _ ⟨⟩ -
    exact ⟨_, _, known, applied⟩
  problems p e problem := by
    rintro _ ⟨⟩ unresolved
    have unresolved : Reason.Unresolved (.evaluation _ e) := unresolved
    cases unresolved with
    | call name => exact absurd rfl (problem name)
  failed name text word := by
    simp only [String.append_assoc]
    exact beginsApart 1 (by decide) (by decide) (by decide)
  raw _ _ := by rintro _ ⟨⟩
  holds _ _ := by rintro _ ⟨⟩
  walks _ := by rintro _ ⟨⟩
  compares failed := by
    split
    · rcases Value.compareEscapes failed with rfl | ⟨symbol, rfl⟩
      · contradiction
      · exact fun name => beginsApart 9 (by decide) (by decide) (by decide)
    · rintro _ ⟨⟩
  texts _ := by rintro _ ⟨⟩

end Calling

section

variable {env : Registry} {tree : Node} {functions : List (String × Callable)} {host : Host}
  {problem : String → Prop}

theorem Expr.Resolved.answered {e : Expr} (resolved : e.Resolved env tree functions) :
    ∀ name ∈ e.functions, Expr.Answered functions (Provided env tree) problem name := by
  intro name listed
  obtain ⟨args, here⟩ := e.functionsCalled.mp listed
  obtain ⟨written, c, known, found⟩ := resolved name args here
  rw [Expr.Answered, found]
  exact ⟨.function, name, written, known⟩

theorem Instruction.Resolved.admitted {may : Failure → Prop} {i : Instruction}
    (resolved : i.Resolved env tree functions) : i.Admitted functions may problem (Provided env tree) := by
  cases i with
  | text | inclusion => trivial
  | emit =>
    obtain ⟨calls, filters⟩ := resolved
    refine ⟨calls.answered, fun f member => ?_⟩
    obtain ⟨written, found⟩ := filters f member
    exact ⟨.filter, f.name, written, found⟩
  | branch | iterate => exact resolved.answered
  | foreign => exact resolved.elim

/- What a render ends with that has called only what it may. -/
theorem Calling.concluded {named : Callable → Prop} {handlers : Value} {earlier : List (Callable × List Value)}
    {x : EStateM.Result Failure RunState Unit}
    (upheld : Upheld (Calling named handlers earlier []) (Raised host named) x) :
    (∃ made, (Template.concluded host x).2.calls = made ++ earlier ∧
      ∀ call ∈ made, named call.1 ∨ Handler handlers call.1) ∧
    ∀ r fault, (Template.concluded host x).1 = .ok r → r.failure = some fault → fault.reason.Unresolved →
      ∃ c args, named c ∧ host.apply c args = .error (.template fault) := by
  cases upheld with
  | ok calling =>
    refine ⟨calling.calls, ?_⟩
    rintro r fault ⟨⟩ ⟨⟩
  | @error e s raised calling =>
    cases e with
    | template fault =>
      refine ⟨calling.calls, ?_⟩
      rintro r fault ⟨⟩ ⟨⟩
      exact raised fault rfl
    | value f =>
      refine ⟨calling.calls, ?_⟩
      rintro r fault ⟨⟩

end

/- What a template names is bound once it has been compiled: every call at any depth of any expression is in the
procedure under its name, as every filter is at its place. So a render calls nothing but what the registry had
then, save for handlers, and never finds a name unbound, whatever has become of the registry. -/
theorem namesResolved {env : Registry} {tree : Node} {compiled : Procedure.Compiled}
    (ok : Procedure.compile env tree = .ok compiled) :
    (∀ i ∈ Instruction.allOf compiled.procedure.instructions, i.Resolved env tree compiled.procedure.functions) ∧
    (tree.IncludeFree → ∀ t : Template, t.procedure = compiled.procedure →
      ∀ (later : Engine) (includer : Includer), includer = none ∨ includer = later.includer →
      ∀ (vars : Value) (options : RenderOptions) (w : World),
        (∃ made, (t.render later.host includer vars options w).2.calls = made ++ w.calls ∧
          ∀ call ∈ made, Provided env tree call.1 ∨ Handler options.handlers call.1) ∧
        ∀ r fault, (t.render later.host includer vars options w).1 = .ok r → r.failure = some fault →
          fault.reason.Unresolved →
            ∃ c args, Provided env tree c ∧ later.host.apply c args = .error (.template fault)) := by
  have resolved := Procedure.compiledResolved ok
  refine ⟨resolved, fun free t same later includer _ vars options w => ?_⟩
  cases begun : Frame.start vars options (w.tick later.host).1 with
  | error f =>
    simp only [Template.render, Template.begin, begun, Except.map]
    exact ⟨⟨[], rfl, by simp⟩, by rintro r fault ⟨⟩⟩
  | ok f =>
    rw [Template.renderEnds begun]
    refine Calling.concluded ?_
    have under := Frame.startUnder begun (w.tick later.host).2
    have calling : Calling (Provided env tree) options.handlers w.calls [] ⟨f, (w.tick later.host).2⟩ :=
      ⟨under.scopes, congrArg RenderOptions.handlers under.noted, [], rfl, by simp⟩
    refine Upholds.bind (Calling.keeping.executeUpholds t ?_ ?_) (fun _ => Calling.keeping.deadlineUpholds) _ calling
    · rw [same]
      exact fun j here => (resolved j here).admitted
    · rw [same]
      intro p name here
      exact absurd (resolved _ here) (free p name)

/- A function within another, in the collection of a loop, and a filter inside the loop. -/
def sampleNames : Registry := ⟨[("up", .builtin .upper)], [("f", .host "f"), ("g", .host "g")], 3⟩

def sampleNested : Node := .root .start [.loop .start "x" "f(!g(1))" [.output .start "x | up"]]

set_option maxRecDepth 4000 in
theorem sampleNestedCompiled : Procedure.compile sampleNames sampleNested =
    .ok ⟨⟨[.iterate .start "x" (.call "f" [.not (.call "g" [.literal (.int 1)])])
      [.emit .start "x" (.path "x") [⟨"up", .builtin .upper, []⟩]]], [("f", .host "f"), ("g", .host "g")], 3⟩, []⟩ := by
  have collection : Expr.parse "f(!g(1))" = .ok (.call "f" [.not (.call "g" [.literal (.int 1)])]) := by cbv
  have item : Output.parse "x | up" = .ok ⟨"x", .path "x", [⟨"up", [], 3⟩]⟩ := by cbv
  have header : (Text.allBlank "f(!g(1))" || !Text.isIdentifier "x".toList) = false := by cbv
  simp only [sampleNested, Procedure.compile, Procedure.compileNodes, Procedure.compileNode, Procedure.compileExpr,
    collection, item, header]
  rfl

/- Rendered in an engine that knows no names at all. -/
theorem namesResolvedNested : ∃ compiled, Procedure.compile sampleNames sampleNested = .ok compiled ∧
    (∀ i ∈ Instruction.allOf compiled.procedure.instructions,
      i.Resolved sampleNames sampleNested compiled.procedure.functions) ∧
    ∃ made, ((⟨"", sampleNested, compiled.procedure, []⟩ : Template).render samplePlain.host samplePlain.includer .null
        .unlimited .fresh).2.calls = made ++ World.fresh.calls ∧
      ∀ call ∈ made, Provided sampleNames sampleNested call.1 ∨ Handler RenderOptions.unlimited.handlers call.1 := by
  have free : sampleNested.IncludeFree := by simp [sampleNested, Node.IncludeFree, Node.all, Node.allOf]
  obtain ⟨resolved, runs⟩ := namesResolved sampleNestedCompiled
  exact ⟨_, sampleNestedCompiled, resolved,
    (runs free ⟨"", sampleNested, _, []⟩ rfl samplePlain _ (.inr rfl) .null .unlimited .fresh).1⟩

end Stencil
