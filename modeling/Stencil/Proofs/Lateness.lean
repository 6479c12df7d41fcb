import Stencil.Proofs.Derivation
import Stencil.Proofs.Escapes

/-! Who can say that the time is up. Without a limit no step of a render does, nor does anything that reads or compiles
a template: only a callable or the loader may raise such an error. -/
namespace Stencil

variable {ε ε' α : Type}

theorem adaptedError {x : Except ε α} {f : ε → ε'} {e' : ε'} (failed : x.mapError f = .error e') :
    ∃ e, x = .error e ∧ e' = f e := by
  cases x with
  | error e => exact ⟨e, rfl, by simpa [Except.mapError] using failed.symm⟩
  | ok a => cases failed

/- The failures of what is done before a render. -/
def TemplateError.Early (fault : TemplateError) : Prop := fault.code = .invalid ∨ fault.code = .render

def Failure.Early (f : Failure) : Prop := f.toError.Early

namespace Token

theorem directiveRefused {d : Delimiters} {o : Opener} {s : List Char} {reason : Reason}
    (refused : directive d o s = .error reason) : reason.code = .invalid := by
  rw [directive.eq_def] at refused
  split at refused
  · cases refused
  · cases refused
  · cases refused
  · dsimp only at refused
    split at refused
    · cases refused
    · cases refused
      rfl
  · dsimp only at refused
    split at refused
    · cases refused
    · cases refused
      rfl

theorem scanEarly {d : Delimiters} {text : String} {fault : TemplateError}
    (failed : scan d text = .error fault) : fault.Early := by
  rw [scan] at failed
  generalize Position.start = p at failed
  generalize text.toList = s at failed
  fun_induction scanFrom d d.openers p s with
  | case1 | case4 | case5 => cases failed
  | case2 p c rest reason refused =>
    cases failed
    rw [piece] at refused
    split at refused
    · exact .inl (directiveRefused refused)
    · cases refused
  | case3 p c rest piece read next e inner ih =>
    cases failed
    exact ih inner

end Token

namespace Procedure

variable {env : Registry} {bound : List String} {p : Position} {g : Gathered} {f : Failure}

theorem unreadableEarly (text : String) (fault : SyntaxFault) : (unreadable p text fault).Early := by
  rw [unreadable]
  split
  · exact .inr rfl
  · exact .inl rfl

theorem functionsEarly {names : List String} (failed : bindFunctions env p g names = .error f) : f.Early := by
  induction names generalizing g with
  | nil => cases failed
  | cons name names ih =>
    rw [bindFunctions] at failed
    split at failed
    · cases failed
      exact .inr rfl
    · exact ih failed

theorem filtersEarly {calls : List FilterCall} (failed : bindFilters env p calls = .error f) : f.Early := by
  induction calls with
  | nil => cases failed
  | cons call calls ih =>
    rw [bindFilters] at failed
    split at failed
    · cases failed
      exact .inr rfl
    · rcases boundError failed with rest | ⟨_, -, failed⟩
      · exact ih rest
      · cases failed

theorem exprEarly {text : String} (failed : compileExpr env bound p g text = .error f) : f.Early := by
  rcases boundError failed with read | ⟨e, -, failed⟩
  · obtain ⟨fault, -, rfl⟩ := adaptedError read
    exact unreadableEarly text fault
  · rcases boundError failed with registered | ⟨_, -, failed⟩
    · exact functionsEarly registered
    · cases failed

mutual

theorem nodeEarly {bound : List String} {g : Gathered} {n : Node} (failed : compileNode env bound g n = .error f) :
    f.Early := by
  cases n with
  | text | inclusion => cases failed
  | output p text =>
    rcases boundError failed with read | ⟨o, -, failed⟩
    · obtain ⟨fault, -, rfl⟩ := adaptedError read
      exact unreadableEarly text fault
    · rcases boundError failed with registered | ⟨_, -, failed⟩
      · exact functionsEarly registered
      · rcases boundError failed with filters | ⟨_, -, failed⟩
        · exact filtersEarly filters
        · cases failed
  | conditional p condition children otherwise =>
    rw [compileNode] at failed
    split at failed
    · cases failed
      exact .inl rfl
    · rcases boundError failed with read | ⟨_, -, failed⟩
      · exact exprEarly read
      · rcases boundError failed with first | ⟨_, -, failed⟩
        · exact nodesEarly first
        · rcases boundError failed with second | ⟨_, -, failed⟩
          · exact nodesEarly second
          · cases failed
  | loop p name collection children =>
    rw [compileNode] at failed
    split at failed
    · cases failed
      exact .inl rfl
    · rcases boundError failed with read | ⟨_, -, failed⟩
      · exact exprEarly read
      · rcases boundError failed with inner | ⟨_, -, failed⟩
        · exact nodesEarly inner
        · cases failed
  | root | foreign =>
    cases failed
    exact .inr rfl

theorem nodesEarly {bound : List String} {g : Gathered} {ns : List Node}
    (failed : compileNodes env bound g ns = .error f) : f.Early := by
  cases ns with
  | nil => cases failed
  | cons n ns =>
    rcases boundError failed with first | ⟨_, -, failed⟩
    · exact nodeEarly first
    · rcases boundError failed with others | ⟨_, -, failed⟩
      · exact nodesEarly others
      · cases failed

end

theorem compileEarly {tree : Node} (failed : compile env tree = .error f) : f.Early := by
  cases tree with
  | root p children =>
    rcases boundError failed with nodes | ⟨_, -, failed⟩
    · exact nodesEarly nodes
    · cases failed
  | text | output | conditional | loop | inclusion | foreign =>
    cases failed
    exact .inr rfl

end Procedure

theorem Engine.buildEarly {e : Engine} {text : String} {fault : TemplateError} (failed : e.build text = .error fault) :
    fault.Early := by
  rcases boundError failed with scanned | ⟨tokens, -, failed⟩
  · exact Token.scanEarly scanned
  · rcases boundError failed with read | ⟨tree, -, failed⟩
    · exact .inl (Node.treeRefused read)
    · rcases boundError failed with adapted | ⟨_, -, failed⟩
      · obtain ⟨f, compiled, rfl⟩ := adaptedError adapted
        exact Procedure.compileEarly compiled
      · cases failed

theorem Engine.processEarly {e : Engine} {text : String} {cache : Cache Template} {fault : TemplateError}
    (failed : (e.process text true cache).1 = .error fault) : fault.Early := by
  rcases (e.processEnds text cache).2 with built | ⟨entry, -, -, -, found⟩
  · exact buildEarly (built.symm.trans failed)
  · rw [found] at failed
    cases failed

theorem TemplateError.Early.untimely {fault : TemplateError} (early : fault.Early) : fault.code ≠ .timeout := by
  rcases early with code | code <;> simp [code]

/- An error that somebody else than the engine raises. -/
def Engine.Raises (e : Engine) (fault : TemplateError) : Prop :=
  (∃ c args, e.host.apply c args = .error (.template fault)) ∨
    ∃ load name, e.loader = some load ∧ load name = .error (.template fault)

/- That the time is up is said by somebody else. -/
def Engine.Timely (e : Engine) (f : Failure) : Prop :=
  ∀ fault, f = .template fault → fault.code = .timeout → e.Raises fault

/- A render without a limit. -/
structure Untimed (scopes : List Scope) (s : RunState) : Prop where
  scopes : s.frame.scopes = scopes
  unlimited : s.frame.deadline = none

namespace Untimed

variable {e : Engine} {scopes : List Scope}

theorem keeping : Keeping e.host e.Timely (fun _ => True) (fun _ => True) Untimed where
  scopes untimed := untimed.scopes
  entering scope untimed := ⟨congrArg (scope :: ·) untimed.scopes, untimed.unlimited⟩
  leaving untimed := ⟨congrArg List.tail untimed.scopes, untimed.unlimited⟩
  writing _ untimed := ⟨untimed.scopes, untimed.unlimited⟩
  finding _ untimed := ⟨untimed.scopes, untimed.unlimited⟩
  lacking _ untimed := ⟨untimed.scopes, untimed.unlimited⟩
  handling _ _ untimed := ⟨untimed.scopes, untimed.unlimited⟩
  ticking untimed := ⟨untimed.scopes, untimed.unlimited⟩
  calling _ _ untimed := ⟨untimed.scopes, untimed.unlimited⟩
  handled _ _ untimed := ⟨untimed.scopes, untimed.unlimited⟩
  own := by
    rintro ⟨reason, line, column⟩ own _ ⟨⟩ late
    cases own <;> cases late
  late untimed limited := by
    rw [untimed.unlimited] at limited
    cases limited
  raised _ applied := by
    rintro _ ⟨⟩ -
    exact .inl ⟨_, _, applied⟩
  problems _ _ _ := by rintro _ ⟨⟩ ⟨⟩
  failed _ _ := trivial
  raw _ _ := by rintro _ ⟨⟩
  holds _ _ := by rintro _ ⟨⟩
  walks _ := by rintro _ ⟨⟩
  compares _ := by
    split
    · trivial
    · rintro _ ⟨⟩
  texts _ := by rintro _ ⟨⟩

theorem admits (functions : List (String × Callable)) (i : Instruction) :
    i.Admitted functions e.Timely (fun _ => True) (fun _ => True) := by
  refine Instruction.admittedFreely (fun kind => ?_) functions i
  rintro _ ⟨⟩ ⟨⟩

theorem sourceTimely {name : String} {fault : TemplateError} (failed : e.source name = .error fault) :
    e.Timely (.template fault) := by
  rintro _ ⟨⟩ late
  rw [Engine.source] at failed
  split at failed
  · cases failed
    cases late
  · rename_i load known
    split at failed
    · cases failed
    · cases failed
      cases late
    · rename_i raised
      cases failed
      exact .inr ⟨load, name, known, raised⟩
    · cases failed
      cases late

theorem loadUpholds (text : String) (scopes : List Scope) : Upholds (Untimed scopes) e.Timely (e.load text) := by
  intro s untimed
  rw [Engine.loadEnds]
  cases processed : (e.process text true s.world.cache).1 with
  | ok p => exact .ok ⟨untimed.scopes, untimed.unlimited⟩
  | error fault =>
    refine .error ?_ ⟨untimed.scopes, untimed.unlimited⟩
    rintro _ ⟨⟩ late
    exact absurd late (Engine.processEarly processed).untimely

theorem runUpholds {includer : Includer} (hook : includer = none ∨ includer = e.includer) (t : Template) :
    Upholds (Untimed []) e.Timely (do Run.execute e.host includer t; Run.checkDeadline e.host) := by
  refine .bind (keeping.executeUpholds t (fun j _ => admits _ j) ?_) fun _ => keeping.deadlineUpholds
  rintro p name - run same scopes
  rcases hook with rfl | rfl
  · cases same
  · cases same
    refine keeping.inclusionUpholds admits (fun name => ?_) sourceTimely loadUpholds _ name scopes
    rintro _ ⟨⟩ ⟨⟩

/- What the result of a render without a limit says of the time, somebody else has raised. -/
theorem renderTimely {includer : Includer} (hook : includer = none ∨ includer = e.includer)
    {options : RenderOptions} (unlimited : options.timeout.isPositive = false) (t : Template) (vars : Value)
    (w : World) {r : RenderResult} {fault : TemplateError}
    (ended : (t.render e.host includer vars options w).1 = .ok r) (failed : r.failure = some fault)
    (late : fault.code = .timeout) : e.Raises fault := by
  rw [Template.renderEnds (Frame.startUnlimited unlimited _ _)] at ended
  have upheld := runUpholds hook t ⟨⟨givenVars vars, options, "", [], [], [], [], (w.tick e.host).1, none⟩,
    (w.tick e.host).2⟩ ⟨rfl, rfl⟩
  generalize (do Run.execute e.host includer t; Run.checkDeadline e.host : Run Unit)
    ⟨⟨givenVars vars, options, _, _, _, _, _, _, _⟩, _⟩ = x at upheld ended
  cases upheld with
  | ok =>
    cases ended
    cases failed
  | @error f s timely =>
    cases f with
    | template e' =>
      cases ended
      cases failed
      exact timely _ rfl late
    | value f => cases ended

end Untimed

end Stencil
