import Stencil.Proofs.Upkeep

/-! Computations that go hand in hand until one of them fails. From there on only the other goes on, and what
is true where they part has to stay true of it. -/
namespace Stencil

variable {ε σ τ α β : Type}

/- Whatever becomes of a computation, the property stays. -/
abbrev Lasts (P : σ → Prop) (m : EStateM ε σ α) : Prop := Upholds P (fun _ => True) m

/- Either both end the same way, or the first has failed. -/
inductive Parts (R : σ → τ → Prop) (Q : ε → σ → τ → Prop) :
    EStateM.Result ε σ α → EStateM.Result ε τ α → Prop where
  | together {x y} (ends : Ends R x y) : Parts R Q x y
  | apart {e s y} (parted : Upheld (Q e s) (fun _ => True) y) : Parts R Q (.error e s) y

def Parting (R : σ → τ → Prop) (Q : ε → σ → τ → Prop) (m : EStateM ε σ α) (n : EStateM ε τ α) : Prop :=
  ∀ s t, R s t → Parts R Q (m s) (n t)

namespace Parting

variable {R : σ → τ → Prop} {Q : ε → σ → τ → Prop}

theorem ofCoupled {m : EStateM ε σ α} {n : EStateM ε τ α} (coupled : Coupled R m n) : Parting R Q m n :=
  fun s t related => .together (coupled s t related)

theorem bind {m : EStateM ε σ α} {n : EStateM ε τ α} {f : α → EStateM ε σ β} {g : α → EStateM ε τ β}
    (first : Parting R Q m n) (next : ∀ a, Parting R Q (f a) (g a))
    (lasts : ∀ e s a, Lasts (Q e s) (g a)) : Parting R Q (m >>= f) (n >>= g) := by
  intro s t related
  have parts := first s t related
  simp only [Bind.bind, EStateM.bind]
  generalize m s = x at parts ⊢
  generalize n t = y at parts ⊢
  cases parts with
  | together ends =>
    cases ends with
    | ok a after => exact next a _ _ after
    | error e after => exact .together (.error e after)
  | apart parted =>
    cases parted with
    | ok kept => exact .apart (lasts _ _ _ _ kept)
    | error _ kept => exact .apart (.error trivial kept)

/- As long as they have not parted, nothing has to last. -/
theorem after {m : EStateM ε σ α} {n : EStateM ε τ α} {f : α → EStateM ε σ β} {g : α → EStateM ε τ β}
    (first : Coupled R m n) (next : ∀ a, Parting R Q (f a) (g a)) : Parting R Q (m >>= f) (n >>= g) := by
  intro s t related
  have ends := first s t related
  simp only [Bind.bind, EStateM.bind]
  generalize m s = x at ends ⊢
  generalize n t = y at ends ⊢
  cases ends with
  | ok a after => exact next a _ _ after
  | error e after => exact .together (.error e after)

end Parting

namespace Run

/- A scope is closed on both sides, also where they have parted in it. -/
theorem withinParting {R R' : RunState → RunState → Prop} {Q Q' : Failure → RunState → RunState → Prop}
    {scope : Scope} {body body' : Run Unit}
    (enter : ∀ s t, R s t → R' (s.entering scope) (t.entering scope))
    (leave : ∀ s t, R' s t → s.frame.scopes ≠ [] ∧ t.frame.scopes ≠ [] ∧ R s.leaving t.leaving)
    (part : ∀ e s t, Q' e s t → s.frame.scopes ≠ [] ∧ t.frame.scopes ≠ [] ∧ Q e s.leaving t.leaving)
    (inner : Parting R' Q' body body') : Parting R Q (within scope body) (within scope body') := by
  intro s t related
  have parts := inner _ _ (enter s t related)
  generalize left : body (s.entering scope) = x at parts
  generalize right : body' (t.entering scope) = y at parts
  cases parts with
  | together ends =>
    rw [← left, ← right] at ends
    exact .together (withinEnds leave ends)
  | apart parted =>
    cases parted with
    | ok kept =>
      obtain ⟨opened, opened', closed⟩ := part _ _ _ kept
      rw [withinError left opened, withinOk right opened']
      exact .apart (.ok closed)
    | error _ kept =>
      obtain ⟨opened, opened', closed⟩ := part _ _ _ kept
      rw [withinError left opened, withinError right opened']
      exact .apart (.error trivial closed)

end Run

theorem prefixAppendNew {x : String} {xs ys : List String} (front : xs <+: ys) : xs <+: appendNew x ys := by
  rw [appendNew]
  split
  · exact front
  · exact front.trans (List.prefix_append _ _)

/- What was found and missed up to some point is the beginning of what is found and missed now. -/
def Behind (used missing : List String) : List Scope → RunState → Prop :=
  Noted fun _ found lacked => used <+: found ∧ missing <+: lacked

/- It remains so. -/
theorem Behind.upkeep {used missing : List String} : Upkeep (fun _ => True) (Behind used missing) := by
  refine Lasting.upkeep (Noted.lasting ?_ ?_) fun w before => before.world w
  · exact fun path before => ⟨prefixAppendNew before.1, before.2⟩
  · exact fun path before => ⟨before.1, prefixAppendNew before.2⟩

/- The first render has failed, in a way that is told by its failure and by what it missed. The second goes on. -/
structure Apart (fails : Failure → List String → Prop) (scopes : List Scope) (e : Failure) (s t : RunState) :
    Prop where
  shut : s.frame.scopes = scopes
  failed : fails e s.frame.missing
  behind : Behind s.frame.used s.frame.missing scopes t

namespace Apart

variable {fails : Failure → List String → Prop} {scopes : List Scope} {e : Failure} {s t : RunState}

theorem leaving {scope : Scope} (apart : Apart fails (scope :: scopes) e s t) :
    s.frame.scopes ≠ [] ∧ t.frame.scopes ≠ [] ∧ Apart fails scopes e s.leaving t.leaving := by
  obtain ⟨shut, failed, behind⟩ := apart
  refine ⟨by simp [shut], by simp [behind.scopes], ?_, failed, Behind.upkeep.leaving behind⟩
  simp [RunState.leaving, shut]

theorem lasts {m : Run α} (upholds : ∀ used missing, Lasts (Behind used missing scopes) m) (e : Failure)
    (s : RunState) : Lasts (Apart fails scopes e s) m := by
  intro t apart
  obtain ⟨shut, failed, behind⟩ := apart
  have upheld := upholds s.frame.used s.frame.missing t behind
  generalize m t = x at upheld ⊢
  cases upheld with
  | ok kept => exact .ok ⟨shut, failed, kept⟩
  | error _ kept => exact .error trivial ⟨shut, failed, kept⟩

end Apart

/- A relation between two renders that every step respects as long as the first one does not fail. -/
structure Racing (host : Host) (fails : Failure → List String → Prop)
    (R : List Scope → RunState → RunState → Prop) : Prop extends Reading host (fun _ => True) R where
  deadline : ∀ scopes,
    Parting (R scopes) (Apart fails scopes) (Run.checkDeadline host) (Run.checkDeadline host)
  require : ∀ scopes paths,
    Parting (R scopes) (Apart fails scopes) (Run.require host paths) (Run.require host paths)

namespace Racing

variable {host : Host} {fails : Failure → List String → Prop} {R : List Scope → RunState → RunState → Prop}
  {scopes : List Scope}

/- How included templates are run: side by side, and by the second render alone after they have parted. -/
structure Includes (host : Host) (fails : Failure → List String → Prop)
    (R : List Scope → RunState → RunState → Prop) (includer : Includer) : Prop where
  parts : ∀ {run}, includer = some run → ∀ name scopes,
    Parting (R scopes) (Apart fails scopes) (run name) (run name)
  lasts : ∀ {run}, includer = some run → ∀ name used missing scopes, Lasts (Behind used missing scopes) (run name)

/- After they have parted, the second render is on its own. -/
theorem Includes.alone {includer : Includer} (includes : Includes host fails R includer)
    (functions : List (String × Callable)) (is : List Instruction) (used missing : List String) :
    Lasts (Behind used missing scopes) (Run.execAll host includer functions is) :=
  Behind.upkeep.execAllUpholds functions is fun _ here name => includes.lasts here name used missing

theorem turnsPart (racing : Racing host fails R) {body : Run Unit} (name : String) (last index : Nat)
    (items : List Value) (parts : ∀ scopes, Parting (R scopes) (Apart fails scopes) body body)
    (lasts : ∀ used missing scopes, Lasts (Behind used missing scopes) body) :
    Parting (R scopes) (Apart fails scopes) (Run.eachItem host name body last index items)
      (Run.eachItem host name body last index items) := by
  induction items generalizing index with
  | nil => exact .ofCoupled (.ofPure ())
  | cons item items ih =>
    have turn (used missing : List String) : Lasts (Behind used missing scopes)
        (Run.within (Run.loopScope name index last item) body) :=
      Behind.upkeep.withinUpholds (lasts used missing _)
    have rest (used missing : List String) : Lasts (Behind used missing scopes)
        (Run.eachItem host name body last (index + 1) items) :=
      Behind.upkeep.keeping.turnsUpholds name last _ items (lasts used missing)
    refine .bind (racing.deadline scopes) (fun _ => .bind ?_ (fun _ => ih (index + 1)) ?_) ?_
    · exact Run.withinParting (fun s t => racing.entering _) (fun s t => racing.opened)
        (fun e s t => Apart.leaving) (parts _)
    · exact fun e s _ => Apart.lasts rest e s
    · exact fun e s _ => Apart.lasts (fun used missing => .bind (turn used missing) fun _ => rest used missing) e s

mutual

theorem execParts (racing : Racing host fails R) {includer : Includer} {scopes : List Scope}
    (includes : Includes host fails R includer) (functions : List (String × Callable)) (i : Instruction) :
    Parting (R scopes) (Apart fails scopes) (Run.exec host includer functions i)
      (Run.exec host includer functions i) := by
  cases i with
  | text s =>
    simp only [Run.exec]
    exact .ofCoupled (racing.writeCoupled s)
  | emit p source e filters =>
    simp only [Run.exec]
    refine .ofCoupled (.bind (racing.evaluates functions p e) fun v => ?_)
    refine .bind (racing.filtersCoupled p filters v.plain) fun w => ?_
    exact .bind (Run.liftCoupled _) racing.writeCoupled
  | branch p e thenPart otherwise =>
    simp only [Run.exec]
    refine .after (racing.evaluates functions p e) fun v => ?_
    split
    · exact execAllParts racing includes functions thenPart
    · exact execAllParts racing includes functions otherwise
  | iterate p name e body =>
    simp only [Run.exec]
    refine .after (racing.evaluates functions p e) fun v => racing.turnsPart name _ 0 _ ?_ ?_
    · exact fun scopes => execAllParts racing includes functions body
    · exact fun used missing scopes => includes.alone functions body used missing
  | inclusion p name =>
    simp only [Run.exec]
    cases present : includer with
    | none => exact .ofCoupled (.ofThrow _)
    | some run => exact includes.parts present name scopes
  | foreign kind => exact .ofCoupled (.ofThrow _)

theorem execAllParts (racing : Racing host fails R) {includer : Includer} {scopes : List Scope}
    (includes : Includes host fails R includer) (functions : List (String × Callable)) (is : List Instruction) :
    Parting (R scopes) (Apart fails scopes) (Run.execAll host includer functions is)
      (Run.execAll host includer functions is) := by
  cases is with
  | nil => exact .ofCoupled (.ofPure ())
  | cons i is =>
    have one (used missing : List String) : Lasts (Behind used missing scopes) (Run.exec host includer functions i) :=
      Behind.upkeep.execUpholds functions i fun _ here name => includes.lasts here name used missing
    have rest (used missing : List String) := @Includes.alone _ _ _ scopes _ includes functions is used missing
    simp only [Run.execAll]
    refine .bind (racing.deadline scopes) (fun _ => ?_) ?_
    · refine .bind (execParts racing includes functions i) (fun _ => execAllParts racing includes functions is) ?_
      exact fun e s _ => Apart.lasts rest e s
    · exact fun e s _ => Apart.lasts (fun used missing => .bind (one used missing) fun _ => rest used missing) e s

end

theorem executeParts (racing : Racing host fails R) {includer : Includer}
    (includes : Includes host fails R includer) (t : Template) :
    Parting (R scopes) (Apart fails scopes) (Run.execute host includer t) (Run.execute host includer t) := by
  refine .bind (racing.require scopes _) (fun _ => racing.execAllParts includes _ _) ?_
  exact fun e s _ => Apart.lasts (includes.alone _ _) e s

/- A whole render, up to the last look at the time. -/
theorem runParts (racing : Racing host fails R) {includer : Includer} (includes : Includes host fails R includer)
    (t : Template) : Parting (R scopes) (Apart fails scopes)
      (do Run.execute host includer t; Run.checkDeadline host)
      (do Run.execute host includer t; Run.checkDeadline host) := by
  refine .bind (racing.executeParts includes t) (fun _ => racing.deadline scopes) ?_
  exact fun e s _ => Apart.lasts (fun used missing => Behind.upkeep.keeping.deadlineUpholds) e s

theorem inclusionParts {e : Engine} (racing : Racing e.host fails R)
    (loads : ∀ text scopes, Coupled (R scopes) (e.load text) (e.load text)) (remaining : Nat) (name : String)
    (scopes : List Scope) :
    Parting (R scopes) (Apart fails scopes) (e.inclusion remaining name) (e.inclusion remaining name) := by
  induction remaining generalizing name scopes with
  | zero => exact .ofCoupled (.ofThrow _)
  | succ remaining ih =>
    simp only [Engine.inclusion]
    cases e.source name with
    | error fault => exact .ofCoupled (.ofThrow _)
    | ok text =>
      refine .after (loads text scopes) fun t => racing.executeParts ⟨?_, ?_⟩ t
      · intro run same word scopes
        cases same
        exact ih word scopes
      · intro run same word used missing scopes
        cases same
        exact Behind.upkeep.inclusionUpholds e remaining word scopes

theorem includes {e : Engine} (racing : Racing e.host fails R)
    (loads : ∀ text scopes, Coupled (R scopes) (e.load text) (e.load text)) :
    Includes e.host fails R e.includer where
  parts := by
    rintro run same name scopes
    cases same
    exact racing.inclusionParts loads _ name scopes
  lasts := by
    rintro run same name used missing scopes
    cases same
    exact Behind.upkeep.inclusionUpholds e _ name scopes

theorem noIncludes : Includes host fails R none where
  parts := by
    rintro run ⟨⟩
  lasts := by
    rintro run ⟨⟩

end Racing
end Stencil
