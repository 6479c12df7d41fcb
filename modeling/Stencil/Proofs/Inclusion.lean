import Stencil.Proofs.Steps

/-! Templates that include templates, to any depth. What every step and every load respects, a whole render
respects, as long as the templates that are loaded are good ones. -/
namespace Stencil

/- A relation that the steps of a render respect, and the templates that may then be run. -/
structure Including (e : Engine) (declared : String → Prop)
    (R : List Scope → RunState → RunState → Prop) (good : Template → Prop) : Prop where
  steps : Stepwise e.host declared R
  known : ∀ {u}, good u → ∀ path ∈ u.dependencies, declared path
  wellScoped : ∀ {u}, good u → Instruction.ScopedAll declared [] u.procedure.instructions
  loads : ∀ {u name text} scopes, good u → name ∈ Instruction.inclusionsOf u.procedure.instructions →
    e.source name = .ok text → Coupled (R scopes) (e.load text) (e.load text)
  gives : ∀ {u name text scopes s t v s'}, good u →
    name ∈ Instruction.inclusionsOf u.procedure.instructions → e.source name = .ok text →
    R scopes s t → e.load text s = .ok v s' → good v

namespace Including

variable {e : Engine} {declared : String → Prop} {R : List Scope → RunState → RunState → Prop}
  {good : Template → Prop}

theorem inclusionCoupled (including : Including e declared R good) (remaining : Nat) {u : Template}
    (fine : good u) {name : String} (member : name ∈ Instruction.inclusionsOf u.procedure.instructions)
    (scopes : List Scope) :
    Coupled (R scopes) (e.inclusion remaining name) (e.inclusion remaining name) := by
  -- The template changes on the way down, so it must be free, and good at every depth.
  induction remaining generalizing u name scopes with
  | zero => exact .ofThrow _
  | succ remaining ih =>
    simp only [Engine.inclusion]
    cases found : e.source name with
    | error fault => exact .ofThrow _
    | ok text =>
      refine .bindOf good (including.loads scopes fine member found) ?_ fun v fine' => ?_
      · exact fun s t v s' related ok => including.gives fine member found related ok
      · refine including.steps.executeCoupled (including.known fine') (including.wellScoped fine') ?_
        intro run same word inside scopes
        cases same
        exact ih fine' inside scopes

theorem executeCoupled (including : Including e declared R good) {t : Template} (fine : good t)
    (scopes : List Scope) :
    Coupled (R scopes) (Run.execute e.host e.includer t) (Run.execute e.host e.includer t) := by
  refine including.steps.executeCoupled (including.known fine) (including.wellScoped fine) ?_
  intro run same name member scopes
  cases same
  exact including.inclusionCoupled _ fine member scopes

theorem runCoupled (including : Including e declared R good)
    (output : ∀ {s s'}, R [] s s' → s.frame.output = s'.frame.output) {t : Template} (fine : good t)
    {s s' : RunState} (related : R [] s s') :
    (t.run e.host e.includer s).1 = (t.run e.host e.includer s').1 ∧
      R [] (t.run e.host e.includer s).2 (t.run e.host e.includer s').2 := by
  have ends := Coupled.bind (including.executeCoupled fine [])
    (fun _ => including.steps.deadline []) s s' related
  simp only [Template.run]
  generalize (Run.execute e.host e.includer t >>= fun _ => Run.checkDeadline e.host) s = a at ends ⊢
  generalize (Run.execute e.host e.includer t >>= fun _ => Run.checkDeadline e.host) s' = b at ends ⊢
  cases ends with
  | ok _ after => exact ⟨by simp only [output after, including.steps.options after], after⟩
  | error fault after => exact ⟨rfl, after⟩

end Including
end Stencil
