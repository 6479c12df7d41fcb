import Stencil.Proofs.Indexing
import Stencil.Proofs.Upkeep

/-! Lookups in a lenient render without a time limit: what was looked up before makes no difference to what is found,
and what is looked up ahead of time stops nothing. -/
namespace Stencil

namespace Frame

/- Frames that differ in when they began and in what lookups leave behind. -/
def Alongside (f g : Frame) : Prop :=
  ∃ used missing handled started,
    f = { g with used := used, missing := missing, handled := handled, started := started }

theorem Alongside.lookedLeft {f f' g : Frame} (same : f.Alongside g) (looked : f.Looked f') : f'.Alongside g := by
  obtain ⟨used, missing, handled, started, rfl⟩ := same
  obtain ⟨more, used', missing', rfl⟩ := looked
  exact ⟨_, _, _, _, rfl⟩

theorem Alongside.lookedRight {f g g' : Frame} (same : f.Alongside g) (looked : g.Looked g') : f.Alongside g' := by
  obtain ⟨used, missing, handled, started, rfl⟩ := same
  obtain ⟨more, used', missing', rfl⟩ := looked
  exact ⟨_, _, _, _, rfl⟩

/- The frame of a lenient render without a time limit. -/
structure Steady (host : Host) (scopes : List Scope) (f : Frame) : Prop where
  scopes : f.scopes = scopes
  lenient : f.options.strict.isOn = false
  unlimited : f.deadline = none
  mapped : f.options.Mapped
  faithful : f.Faithful host

theorem Steady.entering {host : Host} {scopes : List Scope} {s : RunState} (steady : s.frame.Steady host scopes)
    (scope : Scope) : (s.entering scope).frame.Steady host (scope :: scopes) :=
  ⟨congrArg (scope :: ·) steady.scopes, steady.lenient, steady.unlimited, steady.mapped, steady.faithful⟩

theorem Steady.leaving {host : Host} {scope : Scope} {scopes : List Scope} {s : RunState}
    (steady : s.frame.Steady host (scope :: scopes)) : s.leaving.frame.Steady host scopes :=
  ⟨congrArg List.tail steady.scopes, steady.lenient, steady.unlimited, steady.mapped, steady.faithful⟩

theorem Steady.writing {host : Host} {scopes : List Scope} {s : RunState} (steady : s.frame.Steady host scopes)
    (text : String) : (s.writing text).frame.Steady host scopes :=
  ⟨steady.scopes, steady.lenient, steady.unlimited, steady.mapped, steady.faithful⟩

theorem Steady.looked {host : Host} {scopes : List Scope} {f g : Frame} (steady : f.Steady host scopes)
    (looked : f.Looked g) (faithful : g.Faithful host) : g.Steady host scopes := by
  obtain ⟨more, used, missing, rfl⟩ := looked
  exact ⟨steady.scopes, steady.lenient, steady.unlimited, steady.mapped, faithful⟩

end Frame

/- Lookups were made and nothing else was done; no template was compiled. -/
structure Onward (host : Host) (scopes : List Scope) (s s' : RunState) : Prop where
  looked : s.frame.Looked s'.frame
  steady : s'.frame.Steady host scopes
  cache : s'.world.cache = s.world.cache

theorem Onward.refl {host : Host} {scopes : List Scope} {s : RunState} (steady : s.frame.Steady host scopes) :
    Onward host scopes s s := ⟨.refl _, steady, rfl⟩

theorem Onward.finding {host : Host} {scopes : List Scope} {s : RunState} (steady : s.frame.Steady host scopes)
    (path : String) : Onward host scopes s (s.finding path) :=
  have looked : s.frame.Looked (s.finding path).frame :=
    ⟨[], appendNew path s.frame.used, s.frame.missing, by simp [RunState.finding]⟩
  ⟨looked, steady.looked looked steady.faithful, rfl⟩

theorem Onward.lacking {host : Host} {scopes : List Scope} {s : RunState} (steady : s.frame.Steady host scopes)
    (path : String) : Onward host scopes s (s.lacking path) :=
  have looked : s.frame.Looked (s.lacking path).frame :=
    ⟨[], s.frame.used, appendNew path s.frame.missing, by simp [RunState.lacking]⟩
  ⟨looked, steady.looked looked steady.faithful, rfl⟩

theorem Onward.trans {host : Host} {scopes : List Scope} {s s' s'' : RunState} (first : Onward host scopes s s')
    (second : Onward host scopes s' s'') : Onward host scopes s s'' :=
  ⟨first.looked.trans second.looked, second.steady, second.cache.trans first.cache⟩

namespace Run

variable {host : Host} {scopes : List Scope} {path : String} {s : RunState}

/- A lookup gives the value of the path, whatever was looked up before. -/
theorem lookupSteady (steady : s.frame.Steady host scopes) (path : String) :
    match outerValue host s.frame.vars s.frame.options path with
    | .error f => lookup host path s = .error (.value f) s
    | .ok v => ∃ s', lookup host path s = .ok v s' ∧ Onward host scopes s s' := by
  rw [lookupEnds]
  cases raw : rawValue s.frame.vars s.frame.options.defaults path with
  | error f => simp [outerValue, raw, bind, Except.bind]
  | ok u =>
    cases absent : u.isMissing with
    | true =>
      rw [outerPlain raw (.inl absent)]
      simp only [absent, if_true]
      exact ⟨s, rfl, .refl steady⟩
    | false =>
      cases held : Path.holds s.frame.options.handlers path with
      | error f => simp [outerValue, raw, absent, held, bind, Except.bind]
      | ok has =>
        cases has with
        | false =>
          rw [outerPlain raw (.inr held)]
          simp only [absent, Bool.false_eq_true, if_false]
          exact ⟨s, rfl, .refl steady⟩
        | true =>
          have value := @outerHandled host _ _ _ _ raw absent held
          simp only [value, absent, Bool.false_eq_true, if_false]
          cases made : s.frame.handled.lookup path with
          | some w =>
            have kept := steady.faithful path w made
            rw [value] at kept
            cases kept
            exact ⟨s, rfl, .refl steady⟩
          | none =>
            obtain ⟨calls, called⟩ := handleLenient steady.lenient host path u s
            simp only [bind, EStateM.bind, called]
            have looked : s.frame.Looked { s.frame with handled :=
                s.frame.handled ++ [(path, handledValue host s.frame.options.handlers path u)] } := ⟨_, _, _, rfl⟩
            exact ⟨_, rfl, looked, steady.looked looked (faithfulAdds steady.faithful value), rfl⟩

theorem resolveSteady (steady : s.frame.Steady host scopes) (numbered : Path.Numbered path) :
    ∃ v s', resolve host path s = .ok v s' ∧ Onward host scopes s s' := by
  rw [resolveEnds]
  cases parts : Path.segments path with
  | nil => exact ⟨_, s, rfl, .refl steady⟩
  | cons root rest =>
    dsimp only
    cases s.frame.bound? root with
    | some v =>
      rw [Path.Numbered, parts] at numbered
      obtain ⟨w, walked⟩ := Path.walkNumbered (List.forall_mem_cons.mp numbered).2 v
      dsimp only
      rw [walked]
      exact ⟨w, s, rfl, .refl steady⟩
    | none =>
      have looks := lookupSteady steady path
      obtain ⟨v, value⟩ := outerNumbered steady.mapped numbered host s.frame.vars
      rw [value] at looks
      obtain ⟨s', looked, onward⟩ := looks
      exact ⟨v, s', looked, onward⟩

/- What is looked up ahead of time never stops a lenient render. -/
theorem requireSteady {paths : List String} (steady : s.frame.Steady host scopes)
    (numbered : ∀ path ∈ paths, Path.Numbered path) :
    ∃ s', require host paths s = .ok () s' ∧ Onward host scopes s s' := by
  induction paths generalizing s with
  | nil => exact ⟨s, rfl, .refl steady⟩
  | cons path paths ih =>
    obtain ⟨first, others⟩ := List.forall_mem_cons.mp numbered
    obtain ⟨v, s₁, resolved, onward⟩ := resolveSteady steady first
    rw [requireStep onward.steady.lenient resolved]
    have noted : Onward host scopes s₁ (if v.isMissing then s₁.lacking path else s₁.finding path) := by
      split
      · exact .lacking onward.steady path
      · exact .finding onward.steady path
    obtain ⟨s', required, later⟩ := ih noted.steady others
    exact ⟨s', required, (onward.trans noted).trans later⟩

end Run

end Stencil
