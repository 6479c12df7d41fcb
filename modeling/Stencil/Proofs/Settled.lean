import Stencil.Proofs.Steps

/-! What a path stands for that no loop binds, and that it stands for the same all through a render. The
first lookup calls the handler of the path and keeps what it made; once all the dependencies of a template
were looked up, a lookup is only a reading. Nothing is said of strict mode, where a failing handler ends
the render. -/
namespace Stencil

/- Vars that hold nothing are as if there were none. -/
def givenVars (vars : Value) : Value := if vars.isTruthy then vars else .map []

theorem lookupAppended {β : Type} {xs : List (String × β)} {key other : String} {v u : β}
    (found : (xs ++ [(key, v)]).lookup other = some u) : xs.lookup other = some u ∨ other = key ∧ u = v := by
  rw [List.lookup_append] at found
  cases old : xs.lookup other with
  | some w =>
    rw [old, Option.some_or] at found
    exact .inl found
  | none =>
    rw [old, Option.none_or, List.lookup_cons] at found
    split at found
    · rename_i same
      cases found
      exact .inr ⟨eq_of_beq same, rfl⟩
    · cases found

/- The value of a path in the variables or, failing that, in the defaults. -/
def rawValue (vars defaults : Value) (path : String) : Except ValueFault Value := do
  let v ← Path.resolve vars path
  if v.isMissing then
    if ← Path.holds defaults path then Path.under defaults path
    else Path.resolve defaults path
  else return v

/- What the handler of a path makes of a value. One that fails leaves the value as it is. -/
def handledValue (host : Host) (handlers : Value) (path : String) (v : Value) : Value :=
  match Path.under handlers path with
  | .ok (.callable c) =>
    match host.apply c [v] with
    | .ok w => w
    | .error _ => v
  | _ => v

def outerValue (host : Host) (vars : Value) (options : RenderOptions) (path : String) :
    Except ValueFault Value := do
  let v ← rawValue vars options.defaults path
  if v.isMissing then return v
  if ← Path.holds options.handlers path then return handledValue host options.handlers path v
  else return v

section

variable {host : Host} {vars v : Value} {options : RenderOptions} {path : String}

theorem outerPlain (raw : rawValue vars options.defaults path = .ok v)
    (plain : v.isMissing = true ∨ Path.holds options.handlers path = .ok false) :
    outerValue host vars options path = .ok v := by
  rcases plain with absent | free
  · simp [outerValue, raw, absent, bind, Except.bind, pure, Except.pure]
  · cases absent : v.isMissing <;> simp [outerValue, raw, absent, free, bind, Except.bind, pure, Except.pure]

theorem outerHandled (raw : rawValue vars options.defaults path = .ok v) (present : v.isMissing = false)
    (held : Path.holds options.handlers path = .ok true) :
    outerValue host vars options path = .ok (handledValue host options.handlers path v) := by
  simp [outerValue, raw, present, held, bind, Except.bind, pure, Except.pure]

end

namespace Run

theorem lookupEnds (host : Host) (path : String) (s : RunState) :
    lookup host path s =
      match rawValue s.frame.vars s.frame.options.defaults path with
      | .error e => .error (.value e) s
      | .ok v =>
        if v.isMissing then .ok v s
        else match Path.holds s.frame.options.handlers path with
          | .error e => .error (.value e) s
          | .ok false => .ok v s
          | .ok true =>
            match s.frame.handled.lookup path with
            | some w => .ok w s
            | none => (do
                let w ← handle host s.frame.options path v
                modifyFrame (fun f => { f with handled := f.handled ++ [(path, w)] })
                return w : Run Value) s := by
  simp only [lookup, frame, bind, EStateM.bind, get, getThe, MonadStateOf.get, EStateM.get, pure,
    EStateM.pure]
  have same : s.frame.raw path = rawValue s.frame.vars s.frame.options.defaults path := rfl
  rw [same]
  cases rawValue s.frame.vars s.frame.options.defaults path with
  | error e => rfl
  | ok v =>
    simp only [lift, pure, EStateM.pure]
    split
    · rfl
    · cases Path.holds s.frame.options.handlers path with
      | error e => rfl
      | ok held =>
        cases held with
        | false => rfl
        | true =>
          cases s.frame.handled.lookup path <;> rfl

theorem handleCoupled {R : RunState → RunState → Prop} {host : Host}
    (calls : ∀ c args, Coupled R (call host c args) (call host c args)) (options : RenderOptions)
    (path : String) (v : Value) : Coupled R (handle host options path v) (handle host options path v) := by
  refine .bind ?_ fun result => ?_
  · rw [callHandler]
    split
    · exact calls _ _
    · exact .ofPure _
    · exact .ofPure _
  · split
    · exact .ofPure _
    · split
      · exact .ofThrow _
      · exact .ofPure _

/- Lookups go hand in hand where the path has the same value on both sides before any handler is called. -/
theorem lookupCoupled {R : RunState → RunState → Prop} {host : Host} {path : String}
    (same : ∀ s t, R s t → rawValue s.frame.vars s.frame.options.defaults path =
        rawValue t.frame.vars t.frame.options.defaults path ∧
      s.frame.options.handlers = t.frame.options.handlers ∧ s.frame.options.strict = t.frame.options.strict ∧
      s.frame.handled = t.frame.handled)
    (calls : ∀ c args, Coupled R (call host c args) (call host c args))
    (handling : ∀ s t v, R s t → R (s.handling path v) (t.handling path v)) :
    Coupled R (lookup host path) (lookup host path) := by
  intro s t related
  obtain ⟨raw, handlers, strict, handled⟩ := same s t related
  have handles (v : Value) : handle host s.frame.options path v = handle host t.frame.options path v := by
    simp only [handle, handlers, strict]
  rw [lookupEnds, lookupEnds, raw, handlers, handled]
  simp only [handles]
  cases rawValue t.frame.vars t.frame.options.defaults path with
  | error fault => exact .error _ related
  | ok v =>
    dsimp only
    split
    · exact .ok v related
    · cases Path.holds t.frame.options.handlers path with
      | error fault => exact .error _ related
      | ok held =>
        cases held with
        | false => exact .ok v related
        | true =>
          cases t.frame.handled.lookup path with
          | some w => exact .ok w related
          | none =>
            refine Coupled.bind (handleCoupled calls _ path v) (fun w => ?_) s t related
            exact .bind (modifyCoupled fun s t => handling s t w) fun _ => .ofPure w

theorem handleLenient {options : RenderOptions} (lenient : options.strict.isOn = false) (host : Host)
    (path : String) (v : Value) (s : RunState) :
    ∃ calls, handle host options path v s =
      .ok (handledValue host options.handlers path v) { s with world := { s.world with calls := calls } } := by
  simp only [handle, handledValue, bind, EStateM.bind]
  cases under : Path.under options.handlers path with
  | error fault => exact ⟨s.world.calls, by simp [callHandler, under, lenient, pure, EStateM.pure]⟩
  | ok handler =>
    cases handler with
    | callable c =>
      have called : callHandler host options.handlers path v s =
          .ok (host.apply c [v]) { s with world := (s.world.call host c [v]).2 } := by
        simp [callHandler, under, call, modifyGet, MonadStateOf.modifyGet, EStateM.modifyGet, World.call]
      refine ⟨(c, [v]) :: s.world.calls, ?_⟩
      rw [called]
      dsimp only
      cases host.apply c [v] with
      | ok w => rfl
      | error fault => simp [lenient, pure, EStateM.pure, World.call]
    | _ => exact ⟨s.world.calls, by simp [callHandler, under, lenient, pure, EStateM.pure]⟩

end Run

namespace Frame

theorem startUnlimited {options : RenderOptions} (unlimited : options.timeout.isPositive = false)
    (vars : Value) (now : Binary64) :
    start vars options now = .ok ⟨givenVars vars, options, "", [], [], [], [], now, none⟩ := by
  simp only [start, unlimited, Bool.false_eq_true, if_false]
  rfl

/- What the handlers made of paths is kept for the rest of the render. -/
structure Extends (f g : Frame) : Prop where
  vars : g.vars = f.vars
  options : g.options = f.options
  handled : ∃ more, g.handled = f.handled ++ more

theorem Extends.trans {f g h : Frame} (first : Extends f g) (second : Extends g h) : Extends f h := by
  obtain ⟨more, early⟩ := first.handled
  obtain ⟨more', late⟩ := second.handled
  exact ⟨second.vars.trans first.vars, second.options.trans first.options, more ++ more', by
    rw [late, early, List.append_assoc]⟩

/- Lookups leave traces in three places and nowhere else. -/
def Looked (f g : Frame) : Prop :=
  ∃ more used missing, g = { f with handled := f.handled ++ more, used := used, missing := missing }

theorem Looked.refl (f : Frame) : Looked f f := ⟨[], f.used, f.missing, by simp⟩

theorem Looked.trans {f g h : Frame} (first : Looked f g) (second : Looked g h) : Looked f h := by
  obtain ⟨more, used, missing, rfl⟩ := first
  obtain ⟨more', used', missing', rfl⟩ := second
  exact ⟨more ++ more', used', missing', by simp⟩

theorem Extends.refl (f : Frame) : Extends f f := ⟨rfl, rfl, [], (List.append_nil _).symm⟩

theorem Looked.extends {f g : Frame} (looked : Looked f g) : Extends f g := by
  obtain ⟨more, used, missing, rfl⟩ := looked
  exact ⟨rfl, rfl, more, rfl⟩

def Faithful (host : Host) (f : Frame) : Prop :=
  ∀ path v, f.handled.lookup path = some v → outerValue host f.vars f.options path = .ok v

/- From here on a lookup of the path reads one and the same value and does nothing else. -/
def Settled (host : Host) (f : Frame) (path : String) : Prop :=
  ∃ v, outerValue host f.vars f.options path = .ok v ∧
    ∀ g w, Extends f g → Run.lookup host path ⟨g, w⟩ = .ok v ⟨g, w⟩

theorem Settled.mono {host : Host} {f g : Frame} {path : String} (settled : Settled host f path)
    (later : Extends f g) : Settled host g path := by
  obtain ⟨v, value, reads⟩ := settled
  refine ⟨v, ?_, fun h w latest => reads h w (later.trans latest)⟩
  rw [later.vars, later.options, value]

end Frame

namespace Run

theorem settledRaw {host : Host} {f : Frame} {path : String} {v : Value}
    (raw : rawValue f.vars f.options.defaults path = .ok v)
    (plain : v.isMissing = true ∨ Path.holds f.options.handlers path = .ok false) :
    f.Settled host path := by
  refine ⟨v, outerPlain raw plain, fun g w later => ?_⟩
  rw [lookupEnds, later.vars, later.options, raw]
  rcases plain with absent | free
  · simp [absent]
  · cases absent : v.isMissing <;> simp [absent, free]

theorem settledHandled {host : Host} {f : Frame} {path : String} {u v : Value}
    (raw : rawValue f.vars f.options.defaults path = .ok u) (present : u.isMissing = false)
    (held : Path.holds f.options.handlers path = .ok true) (made : f.handled.lookup path = some v)
    (right : outerValue host f.vars f.options path = .ok v) : f.Settled host path := by
  refine ⟨v, right, fun g w later => ?_⟩
  obtain ⟨more, grown⟩ := later.handled
  have kept : g.handled.lookup path = some v := by rw [grown, List.lookup_append, made, Option.some_or]
  rw [lookupEnds, later.vars, later.options, raw]
  simp [present, held, kept]

theorem faithfulAdds {host : Host} {f : Frame} {path : String} {v : Value} (faithful : f.Faithful host)
    (right : outerValue host f.vars f.options path = .ok v) :
    Frame.Faithful host { f with handled := f.handled ++ [(path, v)] } := by
  intro other u found
  rcases lookupAppended found with old | ⟨rfl, rfl⟩
  · exact faithful other u old
  · exact right

theorem lookupSettles {host : Host} {path : String} {s s' : RunState} {v : Value}
    (lenient : s.frame.options.strict.isOn = false) (faithful : s.frame.Faithful host)
    (ok : lookup host path s = .ok v s') :
    s.frame.Looked s'.frame ∧ s'.frame.Faithful host ∧ s'.frame.Settled host path := by
  rw [lookupEnds] at ok
  cases raw : rawValue s.frame.vars s.frame.options.defaults path with
  | error e => simp [raw] at ok
  | ok u =>
    simp only [raw] at ok
    cases absent : u.isMissing with
    | true =>
      simp only [absent, if_true] at ok
      cases ok
      exact ⟨.refl _, faithful, settledRaw raw (.inl absent)⟩
    | false =>
      simp only [absent, Bool.false_eq_true, if_false] at ok
      cases held : Path.holds s.frame.options.handlers path with
      | error e => simp [held] at ok
      | ok has =>
        simp only [held] at ok
        cases has with
        | false =>
          cases ok
          exact ⟨.refl _, faithful, settledRaw raw (.inr held)⟩
        | true =>
          cases made : s.frame.handled.lookup path with
          | some w =>
            simp only [made] at ok
            cases ok
            exact ⟨.refl _, faithful, settledHandled raw absent held made (faithful path v made)⟩
          | none =>
            have right := @outerHandled host _ _ _ _ raw absent held
            obtain ⟨w, called⟩ := handleLenient lenient host path u s
            simp only [made, bind, EStateM.bind, called] at ok
            cases ok
            refine ⟨⟨[(path, _)], _, _, rfl⟩, faithfulAdds faithful right, ?_⟩
            refine settledHandled raw absent held ?_ right
            rw [List.lookup_append, made, Option.none_or, List.lookup_cons_self]

theorem resolveSettles {host : Host} {path : String} {s s' : RunState} {v : Value}
    (lenient : s.frame.options.strict.isOn = false) (outermost : s.frame.scopes = [])
    (faithful : s.frame.Faithful host) (ok : resolve host path s = .ok v s') :
    s.frame.Looked s'.frame ∧ s'.frame.Faithful host ∧
      (Path.segments path ≠ [] → s'.frame.Settled host path) := by
  rw [resolveEnds] at ok
  cases parts : Path.segments path with
  | nil =>
    simp only [parts] at ok
    cases ok
    exact ⟨.refl _, faithful, by simp⟩
  | cons root rest =>
    simp only [parts, Frame.bound?, outermost, List.findSome?_nil] at ok
    obtain ⟨looked, faithful, settled⟩ := lookupSettles lenient faithful ok
    exact ⟨looked, faithful, fun _ => settled⟩

/- What was looked up is noted, and the next path is looked up. -/
theorem requireStep {host : Host} {path : String} {paths : List String} {s s' : RunState} {v : Value}
    (lenient : s'.frame.options.strict.isOn = false) (resolved : resolve host path s = .ok v s') :
    require host (path :: paths) s =
      require host paths (if v.isMissing then s'.lacking path else s'.finding path) := by
  simp only [require, bind, EStateM.bind, resolved]
  split
  · have goes : ¬ (s'.lacking path).frame.options.strict.isOn = true := by simp [RunState.lacking, lenient]
    exact congrFun (if_neg goes) (s'.lacking path)
  · rfl

theorem notedOnly (v : Value) (path : String) (s : RunState) : ∃ used missing,
    (if v.isMissing then s.lacking path else s.finding path).frame =
      { s.frame with used := used, missing := missing } := by
  split
  · exact ⟨_, _, rfl⟩
  · exact ⟨_, _, rfl⟩

/- Afterwards all is settled that `paths` lead to. -/
theorem requireSettles {host : Host} {paths : List String} {s s' : RunState}
    (lenient : s.frame.options.strict.isOn = false) (outermost : s.frame.scopes = [])
    (faithful : s.frame.Faithful host) (ok : require host paths s = .ok () s') :
    s.frame.Looked s'.frame ∧ s'.frame.Faithful host ∧
      ∀ path ∈ paths, Path.segments path ≠ [] → s'.frame.Settled host path := by
  induction paths generalizing s with
  | nil =>
    cases ok
    exact ⟨.refl _, faithful, by simp⟩
  | cons path paths ih =>
    -- A lookup extends the frame, and noting its outcome changes nothing that lookups see.
    obtain ⟨v, s₁, resolved, -⟩ := ranOk ok
    obtain ⟨looked, faithful₁, settled⟩ := resolveSettles lenient outermost faithful resolved
    have lenient₁ : s₁.frame.options.strict.isOn = false := by rw [looked.extends.options, lenient]
    have outermost₁ : s₁.frame.scopes = [] := by
      obtain ⟨_, _, _, same⟩ := looked
      rw [same]
      exact outermost
    rw [requireStep lenient₁ resolved] at ok
    obtain ⟨used, missing, same⟩ := notedOnly v path s₁
    generalize (if v.isMissing then s₁.lacking path else s₁.finding path) = s₂ at ok same
    have noted : s₁.frame.Looked s₂.frame := ⟨[], used, missing, by simp [same]⟩
    have extends₂ := (looked.trans noted).extends
    obtain ⟨looked₃, faithful₃, others⟩ := ih (by rw [extends₂.options, lenient])
      (by rw [same]; exact outermost₁) (by rw [same]; exact faithful₁) ok
    refine ⟨(looked.trans noted).trans looked₃, faithful₃, fun other member solid => ?_⟩
    rcases List.mem_cons.mp member with rfl | later
    · exact (settled solid).mono (noted.trans looked₃).extends
    · exact others other later solid

/- Where all is settled nothing is in the way. -/
theorem requireSettled {host : Host} {paths : List String} {s : RunState}
    (lenient : s.frame.options.strict.isOn = false) (outermost : s.frame.scopes = [])
    (settled : ∀ path ∈ paths, s.frame.Settled host path) : ∃ s', require host paths s = .ok () s' := by
  induction paths generalizing s with
  | nil => exact ⟨s, rfl⟩
  | cons path paths ih =>
    obtain ⟨v, resolved⟩ : ∃ v, resolve host path s = .ok v s := by
      rw [resolveEnds]
      cases Path.segments path with
      | nil => exact ⟨_, rfl⟩
      | cons root rest =>
        obtain ⟨v, -, reads⟩ := settled path (by simp)
        exact ⟨v, by simpa [Frame.bound?, outermost] using reads s.frame s.world (.refl _)⟩
    obtain ⟨used, missing, same⟩ := notedOnly v path s
    rw [requireStep lenient resolved]
    generalize (if v.isMissing then s.lacking path else s.finding path) = s₁ at same
    refine ih (by rw [same]; exact lenient) (by rw [same]; exact outermost) fun other member => ?_
    have noted : s.frame.Looked s₁.frame := ⟨[], used, missing, by simp [same]⟩
    exact (settled other (List.mem_cons_of_mem _ member)).mono noted.extends

end Run
end Stencil
