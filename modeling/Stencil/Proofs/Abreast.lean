import Stencil.Proofs.Lenience
import Stencil.Proofs.Splicing

/-! A render that includes templates goes hand in hand with a render of the tree in which they stand in the place of
their includes: what they look up ahead of time makes no difference to what is written. There is no time limit and no
strict mode. -/
namespace Stencil

theorem Run.execAllAppend {host : Host} (includer : Includer) (functions : List (String × Callable))
    (is js : List Instruction) :
    execAll host includer functions (is ++ js) =
      (execAll host includer functions is >>= fun _ => execAll host includer functions js) := by
  induction is with
  | nil => rfl
  | cons i is ih => simp only [List.cons_append, execAll, ih, bind_assoc]

namespace Procedure

theorem translatesAppend {env : Registry} {k : Gathered} {bound : List String} {ns ms : List Node}
    {is : List Instruction} (translates : TranslatesAll env k bound (ns ++ ms) is) :
    ∃ first second, is = first ++ second ∧ TranslatesAll env k bound ns first ∧
      TranslatesAll env k bound ms second := by
  induction ns generalizing is with
  | nil => exact ⟨[], is, rfl, .nil, translates⟩
  | cons n ns ih =>
    cases translates with
    | cons one others =>
      obtain ⟨first, second, rfl, before, behind⟩ := ih others
      exact ⟨_ :: first, second, rfl, .cons one before, behind⟩

end Procedure

/- A render of a tree beside one that includes templates. Only the second one compiles them; what the cache holds
for these texts makes no difference. -/
structure Abreast (texts : Set String) (e : Engine) (scopes : List Scope) (s t : RunState) : Prop where
  same : s.frame.Alongside t.frame
  left : s.frame.Steady e.host scopes
  right : t.frame.Steady e.host scopes
  honest : ∀ other ∈ texts, e.Honest other t.world.cache

namespace Abreast

variable {texts : Set String} {e : Engine} {scopes : List Scope} {s t : RunState}

theorem onwardLeft {s' : RunState} (abreast : Abreast texts e scopes s t) (onward : Onward e.host scopes s s') :
    Abreast texts e scopes s' t :=
  ⟨abreast.same.lookedLeft onward.looked, onward.steady, abreast.right, abreast.honest⟩

theorem onwardRight {t' : RunState} (abreast : Abreast texts e scopes s t) (onward : Onward e.host scopes t t') :
    Abreast texts e scopes s t' :=
  ⟨abreast.same.lookedRight onward.looked, abreast.left, onward.steady, by rw [onward.cache]; exact abreast.honest⟩

theorem lookupCoupled (scopes : List Scope) (path : String) :
    Coupled (Abreast texts e scopes) (Run.lookup e.host path) (Run.lookup e.host path) := by
  intro s t abreast
  have looks := Run.lookupSteady abreast.left path
  have looks' := Run.lookupSteady abreast.right path
  have same : outerValue e.host s.frame.vars s.frame.options path =
      outerValue e.host t.frame.vars t.frame.options path := by
    obtain ⟨used, missing, handled, started, same⟩ := abreast.same
    rw [same]
  rw [same] at looks
  cases value : outerValue e.host t.frame.vars t.frame.options path with
  | error f =>
    simp only [value] at looks looks'
    rw [looks, looks']
    exact .error _ abreast
  | ok v =>
    simp only [value] at looks looks'
    obtain ⟨s', looked, onward⟩ := looks
    obtain ⟨t', looked', onward'⟩ := looks'
    rw [looked, looked']
    exact .ok v ((abreast.onwardLeft onward).onwardRight onward')

theorem stepwise : Stepwise e.host (fun _ => True) (Abreast texts e) where
  scopes abreast := ⟨abreast.left.scopes, abreast.right.scopes⟩
  options := by
    rintro scopes s t ⟨⟨used, missing, handled, started, same⟩, -, -, -⟩
    rw [same]
  entering := by
    rintro scopes s t scope ⟨⟨used, missing, handled, started, same⟩, left, right, honest⟩
    exact ⟨⟨used, missing, handled, started, by simp only [RunState.entering, same]⟩, left.entering scope,
      right.entering scope, honest⟩
  leaving := by
    rintro scope scopes s t ⟨⟨used, missing, handled, started, same⟩, left, right, honest⟩
    exact ⟨⟨used, missing, handled, started, by simp only [RunState.leaving, same]⟩, left.leaving, right.leaving,
      honest⟩
  writing := by
    rintro scopes s t text ⟨⟨used, missing, handled, started, same⟩, left, right, honest⟩
    exact ⟨⟨used, missing, handled, started, by simp only [RunState.writing, same]⟩, left.writing text,
      right.writing text, honest⟩
  finding path abreast :=
    (abreast.onwardLeft (.finding abreast.left path)).onwardRight (.finding abreast.right path)
  lacking path abreast :=
    (abreast.onwardLeft (.lacking abreast.left path)).onwardRight (.lacking abreast.right path)
  deadline := by
    intro scopes s t abreast
    rw [Run.checkDeadlineUnlimited e.host abreast.left.unlimited,
      Run.checkDeadlineUnlimited e.host abreast.right.unlimited]
    exact .ok () abreast
  lookup scopes path _ := lookupCoupled scopes path
  call := by
    rintro scopes c args s t ⟨same, left, right, honest⟩
    exact .ok _ ⟨same, left, right, honest⟩

variable {k k' : Gathered}

/- Both sides have the callables of the registry, each under the names that its own text calls. -/
theorem evaluateCoupled {bound bound' : List String} (p : Position) {expr : Expr}
    (notes : k.Notes e.registry bound expr) (notes' : k'.Notes e.registry bound' expr) :
    Coupled (Abreast texts e scopes) (Run.evaluate e.host k'.functions p expr)
      (Run.evaluate e.host k.functions p expr) := by
  have free : Covers scopes [] := by simp [Covers]
  refine .adaptExcept _ (Expr.evalCoupled expr ⟨?_, ?_, stepwise.call scopes⟩)
  · exact fun path _ => stepwise.resolveCoupled free (.inl trivial)
  · intro name member
    obtain ⟨c, known, here⟩ := notes.functions name member
    obtain ⟨c', known', here'⟩ := notes'.functions name member
    rw [known] at known'
    cases known'
    exact here'.trans here.symm

/- The time is never looked at. -/
theorem timelessCoupled {m n : Run Unit} (inner : Coupled (Abreast texts e scopes) m n) :
    Coupled (Abreast texts e scopes) m (Run.checkDeadline e.host >>= fun _ => n) := by
  intro s t abreast
  simp only [bind, EStateM.bind, Run.checkDeadlineUnlimited e.host abreast.right.unlimited]
  exact inner s t abreast

theorem aloneCoupled {includer : Includer} {functions : List (String × Callable)} {i : Instruction} {n : Run Unit}
    (inner : Coupled (Abreast texts e scopes) (Run.exec e.host includer functions i) n) :
    Coupled (Abreast texts e scopes) (Run.execAll e.host includer functions [i]) n := by
  intro s t abreast
  have ends := inner s t abreast
  simp only [Run.execAll, bind, EStateM.bind, Run.checkDeadlineUnlimited e.host abreast.left.unlimited]
  generalize Run.exec e.host includer functions i s = x at ends
  generalize n t = y at ends
  cases ends with
  | ok a after => exact .ok a after
  | error fault after => exact .error fault after

/- The instructions that stand for an include do what the include does. -/
def Replaces (texts : Set String) (e : Engine) (k' : Gathered) (inner : String → Option (List Node))
    (remaining : Nat) (p : Position) (name : String) : Prop :=
  ∀ bound' js scopes, Procedure.TranslatesAll e.registry k' bound' (Node.splice inner (.inclusion p name)) js →
    Coupled (Abreast texts e scopes) (Run.execAll e.host e.includer k'.functions js) (e.inclusion remaining name)

variable {inner : String → Option (List Node)} {remaining : Nat}

mutual

theorem spliceCoupled {scopes : List Scope} {bound bound' : List String} {n : Node} {i : Instruction}
    {js : List Instruction} (translates : Procedure.Translates e.registry k bound n i)
    (spliced : Procedure.TranslatesAll e.registry k' bound' (Node.splice inner n) js)
    (replaces : ∀ p name, .inclusion p name ∈ n.all → Replaces texts e k' inner remaining p name) :
    Coupled (Abreast texts e scopes) (Run.execAll e.host e.includer k'.functions js)
      (Run.exec e.host (some (e.inclusion remaining)) k.functions i) := by
  cases translates with
  | text =>
    cases spliced with
    | cons first none =>
      cases none
      cases first
      refine aloneCoupled ?_
      exact fun s t abreast => .ok () (stepwise.writing _ abreast)
  | output parsed notes binds =>
    cases spliced with
    | cons first none =>
      cases none
      cases first with
      | output parsed' notes' binds' =>
        rw [parsed] at parsed'
        cases parsed'
        rw [binds] at binds'
        cases binds'
        refine aloneCoupled ?_
        simp only [Run.exec]
        refine .bind (evaluateCoupled _ notes notes') fun v => ?_
        refine .bind (stepwise.filtersCoupled _ _ _) fun w => ?_
        exact .bind (Run.liftCoupled _) fun text s t abreast => .ok () (stepwise.writing text abreast)
  | conditional parsed notes first second =>
    cases spliced with
    | cons one none =>
      cases none
      cases one with
      | conditional parsed' notes' first' second' =>
        rw [parsed] at parsed'
        cases parsed'
        refine aloneCoupled ?_
        simp only [Run.exec]
        refine .bind (evaluateCoupled _ notes notes') fun v => ?_
        split
        · exact spliceAllCoupled first first' fun p name member => replaces p name (by simp [Node.all, member])
        · exact spliceAllCoupled second second' fun p name member => replaces p name (by simp [Node.all, member])
  | loop parsed notes body =>
    cases spliced with
    | cons one none =>
      cases none
      cases one with
      | loop parsed' notes' body' =>
        rw [parsed] at parsed'
        cases parsed'
        refine aloneCoupled ?_
        simp only [Run.exec]
        refine .bind (evaluateCoupled _ notes notes') fun v => ?_
        refine stepwise.turnsCoupled _ _ 0 _ fun index item => ?_
        exact spliceAllCoupled body body' fun p name member => replaces p name (by simp [Node.all, member])
  | inclusion => exact replaces _ _ (by simp [Node.all]) _ _ scopes spliced

theorem spliceAllCoupled {scopes : List Scope} {bound bound' : List String} {ns : List Node}
    {is js : List Instruction} (translates : Procedure.TranslatesAll e.registry k bound ns is)
    (spliced : Procedure.TranslatesAll e.registry k' bound' (Node.spliceAll inner ns) js)
    (replaces : ∀ p name, .inclusion p name ∈ Node.allOf ns → Replaces texts e k' inner remaining p name) :
    Coupled (Abreast texts e scopes) (Run.execAll e.host e.includer k'.functions js)
      (Run.execAll e.host (some (e.inclusion remaining)) k.functions is) := by
  cases translates with
  | nil =>
    cases spliced
    exact .ofPure ()
  | cons one others =>
    obtain ⟨first, second, rfl, before, behind⟩ := Procedure.translatesAppend spliced
    rw [Run.execAllAppend]
    simp only [Run.execAll]
    refine timelessCoupled (.bind ?_ fun _ => ?_)
    · exact spliceCoupled one before fun p name member => replaces p name (by simp [Node.allOf, member])
    · exact spliceAllCoupled others behind fun p name member => replaces p name (by simp [Node.allOf, member])

end

variable {text other : String} {level : Nat} {p : Processed}

theorem loads (abreast : Abreast texts e scopes s t) (distinct : texts.InjOn Digest.sha1) (known : other ∈ texts)
    (built : e.build other = .ok p) : ∃ t', e.load other t = .ok p.template t' ∧ Abreast texts e scopes s t' := by
  have kept : ∀ word ∈ texts, e.Honest word (e.process other true t.world.cache).2 :=
    fun word inside => (abreast.honest word inside).kept (distinct inside known)
  have transparent := (abreast.honest other known).transparent
  rw [built] at transparent
  rw [Engine.loadEnds]
  cases processed : (e.process other true t.world.cache).1 with
  | error fault =>
    rw [processed] at transparent
    cases transparent
  | ok q =>
    rw [processed] at transparent
    have same : q.template = p.template := Except.ok.inj transparent
    dsimp only
    rw [same]
    exact ⟨_, rfl, abreast.same, abreast.left, abreast.right, kept⟩

/- An included template runs as its nodes do that stand in its place, by the same for the includes in it. -/
theorem includedReplaces (inlinable : e.Inlinable Path.Plain text)
    (distinct : (e.reached text).InjOn Digest.sha1) {q : Position} {name : String}
    (reached : e.Reaches text level other) (built : e.build other = .ok p)
    (member : .inclusion q name ∈ p.template.tree.all)
    (deep : level + remaining = e.settings.includeDepth.toNat) :
    Replaces (e.reached text) e k' (e.included remaining) remaining q name := by
  have shallow := inlinable.shallow reached built member
  induction remaining generalizing level other p q name with
  | zero => omega
  | succ remaining ih =>
    intro bound' js scopes spliced
    cases found : e.source name with
    | error fault =>
      -- Neither side gets at a text, and both say why.
      simp only [Node.splice, Engine.included, found, Option.getD_none] at spliced
      cases spliced with
      | cons one none =>
        cases none
        cases one
        obtain ⟨depth, enough⟩ := Nat.exists_eq_add_of_lt shallow
        refine aloneCoupled ?_
        simp only [Run.exec, Engine.includer, enough, Engine.inclusion, found]
        exact .ofThrow _
    | ok next =>
      have reached' := Engine.Reaches.through reached built member found
      obtain ⟨p', built'⟩ := inlinable.builds reached'
      obtain ⟨nodes, c, tree, compiled, procedure, -, -⟩ := Engine.builtTree built'
      obtain ⟨_, _, k, same, -, functions, translates⟩ := Procedure.compiled compiled
      cases same
      simp only [Node.splice, Engine.included, found, built', tree, Node.body, Option.getD_some] at spliced
      have runs : Coupled (Abreast (e.reached text) e scopes) (Run.execAll e.host e.includer k'.functions js)
          (Run.execAll e.host (some (e.inclusion remaining)) p'.template.procedure.functions
            p'.template.procedure.instructions) := by
        rw [procedure, ← functions]
        refine spliceAllCoupled translates spliced fun q' name' member' => ?_
        have inside : .inclusion q' name' ∈ p'.template.tree.all := by simp [tree, Node.all, member']
        exact ih reached' built' inside (by omega) (inlinable.shallow reached' built' inside)
      intro s t abreast
      obtain ⟨t₁, loaded, abreast₁⟩ := abreast.loads distinct ⟨_, reached'⟩ built'
      obtain ⟨t₂, required, onward⟩ := Run.requireSteady abreast₁.right (inlinable.numbered reached' built')
      simp only [Engine.inclusion, found, Run.execute, bind, EStateM.bind, loaded, required]
      exact runs s t₂ (abreast₁.onwardRight onward)

/- The spliced tree runs beside the template. Each side first looks up all that it depends on, for itself. -/
theorem executeCoupled (inlinable : e.Inlinable Path.Plain text)
    (distinct : (e.reached text).InjOn Digest.sha1) (built : e.build text = .ok p)
    {c : Procedure.Compiled} (compiled : Procedure.compile e.registry (e.inlined p.template.tree) = .ok c)
    (id : String) : Coupled (Abreast (e.reached text) e scopes)
      (Run.execute e.host e.includer ⟨id, e.inlined p.template.tree, c.procedure, c.dependencies⟩)
      (Run.execute e.host e.includer p.template) := by
  obtain ⟨c', compiled', numbered'⟩ := inlinable.compiles built
  rw [compiled] at compiled'
  cases compiled'
  obtain ⟨nodes, c', tree, whole, procedure, -, -⟩ := Engine.builtTree built
  rw [tree] at compiled
  obtain ⟨_, _, k, same, -, functions, translates⟩ := Procedure.compiled whole
  obtain ⟨_, _, k', same', -, functions', spliced⟩ := Procedure.compiled compiled
  cases same
  cases same'
  have runs : Coupled (Abreast (e.reached text) e scopes)
      (Run.execAll e.host e.includer c.procedure.functions c.procedure.instructions)
      (Run.execAll e.host e.includer p.template.procedure.functions p.template.procedure.instructions) := by
    rw [procedure, ← functions, ← functions']
    refine spliceAllCoupled translates spliced fun q name member => ?_
    exact includedReplaces inlinable distinct .self built (by simp [tree, Node.all, member]) (Nat.zero_add _)
  intro s t abreast
  obtain ⟨s', required, onward⟩ := Run.requireSteady abreast.left numbered'
  obtain ⟨t', required', onward'⟩ := Run.requireSteady abreast.right (inlinable.numbered .self built)
  simp only [Run.execute, bind, EStateM.bind, required, required']
  exact runs s' t' ((abreast.onwardLeft onward).onwardRight onward')

/- Renders begin with nothing looked up. -/
theorem begun {options : RenderOptions} (lenient : options.strict.isOn = false) (mapped : options.Mapped)
    (vars : Value) (now now' : Binary64) (w : World) {w' : World} (honest : ∀ other ∈ texts, e.Honest other w'.cache) :
    Abreast texts e [] ⟨⟨vars, options, "", [], [], [], [], now, none⟩, w⟩
      ⟨⟨vars, options, "", [], [], [], [], now', none⟩, w'⟩ where
  same := ⟨[], [], [], now, rfl⟩
  left := ⟨rfl, lenient, rfl, mapped, by simp [Frame.Faithful]⟩
  right := ⟨rfl, lenient, rfl, mapped, by simp [Frame.Faithful]⟩
  honest := honest

end Abreast

/- What is written, and what went wrong. -/
def RenderResult.outcome (r : RenderResult) : String × Option TemplateError := (r.output, r.failure)

theorem Template.concludedAbreast {texts : Set String} {e : Engine} {x y : EStateM.Result Failure RunState Unit}
    (ends : Ends (Abreast texts e []) x y) :
    (concluded e.host x).1.map RenderResult.outcome = (concluded e.host y).1.map RenderResult.outcome := by
  cases ends with
  | @ok _ s t abreast =>
    obtain ⟨used, missing, handled, started, same⟩ := abreast.same
    simp only [concluded, Except.map, RenderResult.outcome, same]
  | error fault =>
    cases fault <;> rfl

end Stencil
