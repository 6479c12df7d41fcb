import Stencil.Proofs.Steps

/-! Counting the includes that are open. Before an included template runs a counter goes up, afterwards it goes down,
and where it has reached the limit a further include is refused. This is the engine, once the counter is left out. -/
namespace Stencil

variable {ε σ τ α β : Type}

/- What is done afterwards in any case is done on both sides. -/
theorem Coupled.finish {R : σ → τ → Prop} {m : EStateM ε σ α} {n : EStateM ε τ α} {f : EStateM ε σ β}
    {g : EStateM ε τ β} (body : Coupled R m n) (last : Coupled R f g) :
    Coupled R (tryFinally m f) (tryFinally n g) := by
  intro s t related
  have ends := body s t related
  simp only [tryFinally, tryFinally', Functor.map, EStateM.map]
  generalize m s = x at ends ⊢
  generalize n t = y at ends ⊢
  cases ends with
  | ok a after =>
    have closed := last _ _ after
    dsimp only
    generalize f _ = x at closed ⊢
    generalize g _ = y at closed ⊢
    cases closed with
    | ok b closed => exact .ok a closed
    | error e closed => exact .error e closed
  | error e after =>
    have closed := last _ _ after
    dsimp only
    generalize f _ = x at closed ⊢
    generalize g _ = y at closed ⊢
    cases closed with
    | ok b closed => exact .error e closed
    | error e' closed => exact .error e' closed

/- A state that a render is part of. -/
structure Carrier (τ : Type) where
  carry : {α : Type} → Run α → EStateM Failure τ α

namespace Carrier

variable (on : Carrier τ) (host : Host) (hook : String → EStateM Failure τ Unit)
  (functions : List (String × Callable))

def within (scope : Scope) (body : EStateM Failure τ Unit) : EStateM Failure τ Unit := do
  on.carry (Run.pushScope scope)
  tryFinally body (on.carry Run.popScope)

def eachItem (name : String) (body : EStateM Failure τ Unit) (last index : Nat) :
    List Value → EStateM Failure τ Unit
  | [] => return
  | item :: items => do
    on.carry (Run.checkDeadline host)
    on.within (Run.loopScope name index last item) body
    eachItem name body last (index + 1) items

mutual

/- Includes are left to the hook. What stands inside no other instruction is done on the render alone. -/
def exec (i : Instruction) : EStateM Failure τ Unit :=
  match i with
  | .branch p condition thenPart otherwise => do
    let v ← on.carry (Run.evaluate host functions p condition)
    if v.isTruthy then execAll thenPart else execAll otherwise
  | .iterate p name collection body => do
    let v ← on.carry (Run.evaluate host functions p collection)
    let items := v.items?.getD []
    on.eachItem host name (execAll body) (items.length - 1) 0 items
  | .inclusion _ name => hook name
  | i => on.carry (Run.exec host none functions i)
termination_by structural i

def execAll (is : List Instruction) : EStateM Failure τ Unit :=
  match is with
  | [] => return
  | i :: is => do
    on.carry (Run.checkDeadline host)
    exec i
    execAll is
termination_by structural is

end

def execute (t : Template) : EStateM Failure τ Unit := do
  on.carry (Run.require host t.dependencies)
  on.execAll host hook t.procedure.functions t.procedure.instructions

end Carrier

section

variable {on : Carrier σ} {on' : Carrier τ} {R : σ → τ → Prop} {host : Host}
  {hook : String → EStateM Failure σ Unit} {hook' : String → EStateM Failure τ Unit}

/- Two states that the same render is part of, with a relation that it respects. -/
def Carries (on : Carrier σ) (on' : Carrier τ) (R : σ → τ → Prop) : Prop :=
  ∀ {α : Type} (m : Run α), Coupled R (on.carry m) (on'.carry m)

namespace Carries

theorem turnsCoupled (carries : Carries on on' R) {body : EStateM Failure σ Unit} {body' : EStateM Failure τ Unit}
    (inner : Coupled R body body') (name : String) (last index : Nat) (items : List Value) :
    Coupled R (on.eachItem host name body last index items) (on'.eachItem host name body' last index items) := by
  induction items generalizing index with
  | nil => exact .ofPure ()
  | cons item items ih =>
    refine .bind (carries _) fun _ => .bind ?_ fun _ => ih (index + 1)
    exact .bind (carries _) fun _ => .finish inner (carries _)

mutual

/- Where the hooks respect it, every instruction does. -/
theorem execCoupled (carries : Carries on on' R) (hooks : ∀ name, Coupled R (hook name) (hook' name))
    (functions : List (String × Callable)) (i : Instruction) :
    Coupled R (on.exec host hook functions i) (on'.exec host hook' functions i) := by
  cases i with
  | branch p e thenPart otherwise =>
    simp only [Carrier.exec]
    refine .bind (carries _) fun v => ?_
    split
    · exact execAllCoupled carries hooks functions thenPart
    · exact execAllCoupled carries hooks functions otherwise
  | iterate p name e body =>
    simp only [Carrier.exec]
    refine .bind (carries _) fun v => carries.turnsCoupled ?_ name _ 0 _
    exact execAllCoupled carries hooks functions body
  | inclusion p name => exact hooks name
  | text | emit | foreign => exact carries _

theorem execAllCoupled (carries : Carries on on' R) (hooks : ∀ name, Coupled R (hook name) (hook' name))
    (functions : List (String × Callable)) (is : List Instruction) :
    Coupled R (on.execAll host hook functions is) (on'.execAll host hook' functions is) := by
  cases is with
  | nil => exact .ofPure ()
  | cons i is =>
    simp only [Carrier.execAll]
    exact .bind (carries _) fun _ => .bind (execCoupled carries hooks functions i) fun _ =>
      execAllCoupled carries hooks functions is

end

theorem executeCoupled (carries : Carries on on' R) (host : Host) (hooks : ∀ name, Coupled R (hook name) (hook' name))
    (t : Template) : Coupled R (on.execute host hook t) (on'.execute host hook' t) :=
  .bind (carries _) fun _ => carries.execAllCoupled hooks _ _

end Carries

end

/- The render by itself. -/
def Carrier.alone : Carrier RunState := ⟨fun m => m⟩

namespace Carrier

variable {host : Host} {run : String → Run Unit} {functions : List (String × Callable)}

theorem aloneTurns (name : String) (body : Run Unit) (last index : Nat) (items : List Value) :
    alone.eachItem host name body last index items = Run.eachItem host name body last index items := by
  induction items generalizing index with
  | nil => rfl
  | cons item items ih =>
    simp only [eachItem, Run.eachItem, ih]
    rfl

mutual

theorem aloneExec (i : Instruction) : alone.exec host run functions i = Run.exec host (some run) functions i := by
  cases i with
  | branch p e thenPart otherwise =>
    simp only [exec, Run.exec, aloneExecAll thenPart, aloneExecAll otherwise]
    rfl
  | iterate p name e body =>
    simp only [exec, Run.exec, aloneExecAll body, aloneTurns]
    rfl
  | inclusion | text | emit | foreign => simp only [exec, Run.exec, alone]

theorem aloneExecAll (is : List Instruction) :
    alone.execAll host run functions is = Run.execAll host (some run) functions is := by
  cases is with
  | nil => rfl
  | cons i is =>
    simp only [execAll, Run.execAll, aloneExec i, aloneExecAll is]
    rfl

end

theorem aloneExecutes (t : Template) : alone.execute host run t = Run.execute host (some run) t := by
  simp only [execute, Run.execute, aloneExecAll]
  rfl

end Carrier

/- What becomes of an include. -/
inductive Passage where
  | refused (name : String)
  | admitted (name : String)
  | entered (name : String)
  | left (name : String)
  deriving DecidableEq, Repr

/- What happened, and where the counter stood then. -/
structure Note where
  passage : Passage
  counter : Nat
  deriving DecidableEq, Repr

/- How many includes are open after what happened so far, the latest first. -/
def depthOf : List Note → Int
  | [] => 0
  | ⟨.refused _, _⟩ :: log | ⟨.admitted _, _⟩ :: log => depthOf log
  | ⟨.entered _, _⟩ :: log => depthOf log + 1
  | ⟨.left _, _⟩ :: log => depthOf log - 1

/- A render with a counter of the includes that are open, and with what became of all of them. -/
structure Counted where
  run : RunState
  depth : Nat
  log : List Note

namespace Counted

def noting (x : Passage) (c : Counted) : Counted := { c with log := ⟨x, c.depth⟩ :: c.log }

def entering (name : String) (c : Counted) : Counted := { c with depth := c.depth + 1 }.noting (.entered name)

def leaving (name : String) (c : Counted) : Counted := { c with depth := c.depth - 1 }.noting (.left name)

/- Where a run has come to, failed or not. -/
def reached : EStateM.Result Failure Counted Unit → Counted
  | .ok _ c | .error _ c => c

/- What a run ends with, without the counter. -/
def forgotten : EStateM.Result Failure Counted Unit → EStateM.Result Failure RunState Unit
  | .ok a c => .ok a c.run
  | .error f c => .error f c.run

def carrier : Carrier Counted where
  carry m c :=
    match m c.run with
    | .ok a s => .ok a { c with run := s }
    | .error e s => .error e { c with run := s }

end Counted

abbrev Counting := EStateM Failure Counted Unit

namespace Engine

/- Runs a template that may be included. The counter goes down again whether the template fails or not. -/
def visit (e : Engine) (hook : String → Counting) (name : String) : Counting :=
  match e.source name with
  | .error fault => throw (.template fault)
  | .ok text => do
    let t ← Counted.carrier.carry (e.load text)
    modify (Counted.entering name)
    tryFinally (Counted.carrier.execute e.host hook t) (modify (Counted.leaving name))

/- One include, where `hook` is for those within it. -/
def enter (e : Engine) (hook : String → Counting) (name : String) : Counting := do
  if e.settings.includeDepth ≤ (← get).depth then
    modify (Counted.noting (.refused name))
    throw (.template (.of (.tooManyIncludes e.settings.includeDepth name)))
  else
    modify (Counted.noting (.admitted name))
    e.visit hook name

variable {e : Engine} {hook hook' : String → Counting} {name : String} {c : Counted}

theorem enterRefused (full : e.settings.includeDepth ≤ c.depth) : e.enter hook name c =
    .error (.template (.of (.tooManyIncludes e.settings.includeDepth name))) (c.noting (.refused name)) := by
  simp only [enter, bind, EStateM.bind, get, getThe, MonadStateOf.get, EStateM.get, if_pos full]
  rfl

theorem enterAdmitted (room : ¬ e.settings.includeDepth ≤ c.depth) :
    e.enter hook name c = e.visit hook name (c.noting (.admitted name)) := by
  simp only [enter, bind, EStateM.bind, get, getThe, MonadStateOf.get, EStateM.get, if_neg room]
  rfl

/- The body of an include, between counting up and counting down. -/
theorem duringEnds (into out : Counted → Counted) (body : Counting) (c : Counted) :
    (do modify into; tryFinally body (modify out) : Counting) c =
      match body (into c) with
      | .ok a c' => .ok a (out c')
      | .error f c' => .error f (out c') := by
  have begun : (do modify into; tryFinally body (modify out) : Counting) c = tryFinally body (modify out) (into c) := rfl
  rw [begun]
  simp only [tryFinally, tryFinally', Functor.map, EStateM.map]
  cases body (into c) <;> rfl

end Engine

/- What happens fits the number of includes that are open, and so does the counter. -/
def Note.Fits (limit depth : Int) : Note → Prop
  | ⟨.refused _, counter⟩ => counter = depth ∧ limit < depth + 1
  | ⟨.admitted _, counter⟩ => counter = depth ∧ depth + 1 ≤ limit
  | ⟨.entered _, counter⟩ => counter = depth + 1 ∧ depth + 1 ≤ limit
  | ⟨.left _, counter⟩ => counter = depth - 1 ∧ 0 < depth

/- All that has happened did when it happened. -/
def Orderly (limit : Int) (log : List Note) : Prop :=
  ∀ x earlier, x :: earlier <:+ log → x.Fits limit (depthOf earlier)

namespace Orderly

variable {limit : Int} {log earlier : List Note} {x : Note}

theorem nil : Orderly limit [] := by
  intro x earlier first
  simp at first

theorem cons (orderly : Orderly limit log) (fits : x.Fits limit (depthOf log)) : Orderly limit (x :: log) := by
  intro y earlier here
  rcases List.suffix_cons_iff.mp here with same | before
  · cases same
    exact fits
  · exact orderly y earlier before

theorem before (orderly : Orderly limit log) (here : earlier <:+ log) : Orderly limit earlier :=
  fun y rest first => orderly y rest (first.trans here)

theorem bounded (orderly : Orderly limit log) : 0 ≤ depthOf log ∧ depthOf log ≤ max 0 limit := by
  induction log with
  | nil => exact ⟨le_refl 0, le_max_left 0 limit⟩
  | cons x log ih =>
    have fits := orderly x log (List.suffix_refl _)
    have rest := ih (orderly.before (List.suffix_cons x log))
    obtain ⟨passage, counter⟩ := x
    cases passage with
    | refused | admitted => exact rest
    | entered name =>
      simp only [Note.Fits, depthOf] at fits ⊢
      omega
    | left name =>
      simp only [Note.Fits, depthOf] at fits ⊢
      omega

theorem told (orderly : Orderly limit log) (here : x :: earlier <:+ log) :
    x.counter = depthOf (x :: earlier) ∧ x.counter ≤ max 0 limit ∧
      ∀ name, (x.passage = .refused name → limit < depthOf earlier + 1) ∧
        (x.passage = .admitted name → depthOf earlier + 1 ≤ limit) := by
  have fits := orderly x earlier here
  have bounds := (orderly.before here).bounded
  have same : x.counter = depthOf (x :: earlier) := by
    obtain ⟨passage, counter⟩ := x
    cases passage with
    | refused | admitted | entered | left => exact fits.1
  refine ⟨same, same ▸ bounds.2, fun name => ⟨fun refused => ?_, fun admitted => ?_⟩⟩
  · obtain ⟨passage, counter⟩ := x
    cases refused
    exact fits.2
  · obtain ⟨passage, counter⟩ := x
    cases admitted
    exact fits.2

end Orderly

/- A counted render beside the same one without a counter. -/
structure Counts (limit : Int) (depth : Nat) (c : Counted) (s : RunState) : Prop where
  run : c.run = s
  counter : c.depth = depth
  counted : depthOf c.log = depth
  orderly : Orderly limit c.log

/- Two counted renders that are the same, at a depth that stays. -/
structure AtDepth (base : List Note) (depth : Nat) (c c' : Counted) : Prop where
  same : c = c'
  counter : c.depth = depth
  later : base <:+ c.log

namespace Counts

variable {limit : Int} {depth : Nat} {c : Counted} {s : RunState}

theorem refusing (counts : Counts limit depth c s) (full : limit ≤ depth) (name : String) :
    Counts limit depth (c.noting (.refused name)) s := by
  obtain ⟨rfl, rfl, counted, orderly⟩ := counts
  refine ⟨rfl, rfl, counted, orderly.cons ?_⟩
  simp only [Note.Fits]
  omega

theorem admitting (counts : Counts limit depth c s) (room : depth < limit) (name : String) :
    Counts limit depth (c.noting (.admitted name)) s := by
  obtain ⟨rfl, rfl, counted, orderly⟩ := counts
  refine ⟨rfl, rfl, counted, orderly.cons ?_⟩
  simp only [Note.Fits]
  omega

theorem entering (counts : Counts limit depth c s) (room : depth < limit) (name : String) :
    Counts limit (depth + 1) (c.entering name) s := by
  obtain ⟨rfl, rfl, counted, orderly⟩ := counts
  refine ⟨rfl, rfl, congrArg (· + 1) counted, orderly.cons ?_⟩
  simp only [Note.Fits]
  omega

theorem leaving (counts : Counts limit (depth + 1) c s) (name : String) : Counts limit depth (c.leaving name) s := by
  obtain ⟨rfl, counter, counted, orderly⟩ := counts
  have lower : c.depth - 1 = depth := by omega
  refine ⟨rfl, lower, ?_, orderly.cons ?_⟩
  · simp only [Counted.leaving, Counted.noting, depthOf]
    omega
  · simp only [Note.Fits]
    omega

theorem ends {x : EStateM.Result Failure Counted Unit} {y : EStateM.Result Failure RunState Unit}
    (ends : Ends (Counts limit depth) x y) :
    Counted.forgotten x = y ∧ Counts limit depth (Counted.reached x) (Counted.reached x).run := by
  cases ends with
  | ok a counts =>
    obtain rfl := counts.run
    exact ⟨rfl, counts⟩
  | error f counts =>
    obtain rfl := counts.run
    exact ⟨rfl, counts⟩

end Counts

namespace AtDepth

variable {base : List Note} {depth : Nat} {c c' : Counted}

theorem ends {x y : EStateM.Result Failure Counted Unit} (ends : Ends (AtDepth base depth) x y) :
    x = y ∧ AtDepth base depth (Counted.reached x) (Counted.reached y) := by
  cases ends with
  | ok a level =>
    obtain rfl := level.same
    exact ⟨rfl, level⟩
  | error f level =>
    obtain rfl := level.same
    exact ⟨rfl, level⟩

theorem noting (level : AtDepth base depth c c') (x : Passage) : AtDepth base depth (c.noting x) (c'.noting x) := by
  obtain ⟨rfl, counter, later⟩ := level
  exact ⟨rfl, counter, later.trans (List.suffix_cons _ _)⟩

theorem entering (level : AtDepth base depth c c') (name : String) :
    AtDepth base (depth + 1) (c.entering name) (c'.entering name) := by
  obtain ⟨rfl, counter, later⟩ := level
  exact ⟨rfl, congrArg (· + 1) counter, later.trans (List.suffix_cons _ _)⟩

theorem leaving (level : AtDepth base (depth + 1) c c') (name : String) :
    AtDepth base depth (c.leaving name) (c'.leaving name) := by
  obtain ⟨rfl, counter, later⟩ := level
  exact ⟨rfl, congrArg (· - 1) counter, later.trans (List.suffix_cons _ _)⟩

end AtDepth

theorem Counts.carries {limit : Int} {depth : Nat} : Carries Counted.carrier Carrier.alone (Counts limit depth) := by
  rintro α m c s ⟨rfl, counter, counted, orderly⟩
  simp only [Counted.carrier, Carrier.alone]
  cases m c.run with
  | ok a s => exact .ok a ⟨rfl, counter, counted, orderly⟩
  | error f s => exact .error f ⟨rfl, counter, counted, orderly⟩

theorem AtDepth.carries {base : List Note} {depth : Nat} :
    Carries Counted.carrier Counted.carrier (AtDepth base depth) := by
  rintro α m c c' ⟨rfl, counter, later⟩
  simp only [Counted.carrier]
  cases m c.run with
  | ok a s => exact .ok a ⟨rfl, counter, later⟩
  | error f s => exact .error f ⟨rfl, counter, later⟩

namespace Engine

variable {e : Engine} {hook hook' : String → Counting} {run : String → Run Unit} {name : String} {depth : Nat}

theorem visitAtDepth {base : List Note} (hooks : ∀ name, Coupled (AtDepth base (depth + 1)) (hook name) (hook' name)) :
    Coupled (AtDepth base depth) (e.visit hook name) (e.visit hook' name) := by
  rw [visit, visit]
  cases e.source name with
  | error fault => exact .ofThrow _
  | ok text =>
    refine .bind (AtDepth.carries _) fun t => ?_
    intro c c' level
    have ends := AtDepth.carries.executeCoupled e.host hooks t _ _ (level.entering name)
    rw [duringEnds, duringEnds]
    generalize Counted.carrier.execute e.host hook t (c.entering name) = x at ends ⊢
    generalize Counted.carrier.execute e.host hook' t (c'.entering name) = y at ends ⊢
    cases ends with
    | ok a after => exact .ok a (after.leaving name)
    | error f after => exact .error f (after.leaving name)

/- Where an include is refused, what is within it does not matter. -/
theorem enterAtDepth {base : List Note}
    (hooks : depth < e.settings.includeDepth → ∀ name, Coupled (AtDepth base (depth + 1)) (hook name) (hook' name)) :
    Coupled (AtDepth base depth) (e.enter hook name) (e.enter hook' name) := by
  intro c c' level
  obtain rfl := level.same
  obtain rfl := level.counter
  by_cases full : e.settings.includeDepth ≤ c.depth
  · rw [enterRefused full, enterRefused full]
    exact .error _ (level.noting _)
  · rw [enterAdmitted full, enterAdmitted full]
    exact visitAtDepth (hooks (Int.not_le.mp full)) _ _ (level.noting _)

theorem visitCounts (hooks : ∀ name, Coupled (Counts e.settings.includeDepth (depth + 1)) (hook name) (run name))
    (room : depth < e.settings.includeDepth) :
    Coupled (Counts e.settings.includeDepth depth) (e.visit hook name)
      (match e.source name with
        | .error fault => throw (.template fault)
        | .ok text => do
          let t ← e.load text
          Run.execute e.host (some run) t) := by
  rw [visit]
  cases e.source name with
  | error fault => exact .ofThrow _
  | ok text =>
    refine .bind (Counts.carries (e.load text)) fun t => ?_
    intro c s counts
    have ends := Counts.carries.executeCoupled e.host hooks t _ _ (counts.entering room name)
    rw [Carrier.aloneExecutes] at ends
    rw [duringEnds]
    generalize Counted.carrier.execute e.host hook t (c.entering name) = x at ends ⊢
    generalize Run.execute e.host (some run) t s = y at ends ⊢
    cases ends with
    | ok a after => exact .ok a (after.leaving name)
    | error f after => exact .error f (after.leaving name)

/- Every hook that solves the equation of the engine is what the engine does. -/
theorem inclusionCounts (solves : hook = e.enter hook) (remaining : Nat) {depth : Nat}
    (rest : e.settings.includeDepth.toNat - depth = remaining) (name : String) :
    Coupled (Counts e.settings.includeDepth depth) (hook name) (e.inclusion remaining name) := by
  induction remaining generalizing depth name with
  | zero =>
    intro c s counts
    obtain rfl := counts.counter
    have full : e.settings.includeDepth ≤ c.depth := by omega
    rw [solves, enterRefused full]
    exact .error _ (counts.refusing full name)
  | succ remaining ih =>
    intro c s counts
    obtain rfl := counts.counter
    have room : c.depth < e.settings.includeDepth := by omega
    rw [solves, enterAdmitted (Int.not_le.mpr room)]
    exact visitCounts (fun word => ih (by omega) word) room _ _ (counts.admitting room name)

/- The includes down to a number of levels. -/
def levels (e : Engine) : Nat → String → Counting
  | 0 => e.enter fun _ => pure ()
  | remaining + 1 => e.enter (e.levels remaining)

/- Every hook that solves the equation is made of levels. -/
theorem levelsSolve (solves : hook = e.enter hook) {base : List Note} (remaining : Nat) {depth : Nat}
    (rest : e.settings.includeDepth.toNat - depth = remaining) (name : String) :
    Coupled (AtDepth base depth) (hook name) (e.levels remaining name) := by
  rw [solves]
  induction remaining generalizing depth name with
  | zero => exact enterAtDepth fun room => by omega
  | succ remaining ih =>
    refine enterAtDepth fun _ word => ?_
    have deeper := @ih (depth + 1) (by omega) word
    rwa [← solves] at deeper

theorem levelsSteady {base : List Note} (remaining : Nat) {depth : Nat}
    (rest : e.settings.includeDepth.toNat - depth = remaining) (name : String) :
    Coupled (AtDepth base depth) (e.levels remaining name) (e.levels remaining name) := by
  induction remaining generalizing depth name with
  | zero => exact enterAtDepth fun room => by omega
  | succ remaining ih => exact enterAtDepth fun _ word => ih (by omega) word

/- The include of the engine: from every depth down to the limit. -/
def counting (e : Engine) (name : String) : Counting :=
  fun c => e.levels (e.settings.includeDepth.toNat - c.depth) name c

theorem countingLevels {base : List Note} (depth : Nat) (name : String) :
    Coupled (AtDepth base depth) (e.counting name) (e.levels (e.settings.includeDepth.toNat - depth) name) := by
  rintro c c' level
  obtain rfl := level.counter
  exact levelsSteady _ rfl name c c' level

theorem countingEnters {base : List Note} (depth : Nat) (name : String) :
    Coupled (AtDepth base depth) (e.enter e.counting name) (e.levels (e.settings.includeDepth.toNat - depth) name) := by
  cases rest : e.settings.includeDepth.toNat - depth with
  | zero => exact enterAtDepth fun room => by omega
  | succ remaining =>
    have deeper : e.settings.includeDepth.toNat - (depth + 1) = remaining := by omega
    refine enterAtDepth fun _ word => ?_
    rw [← deeper]
    exact countingLevels (depth + 1) word

theorem countingSolves : e.counting = e.enter e.counting := by
  funext name c
  have level : AtDepth [] c.depth c c := ⟨rfl, rfl, List.nil_suffix⟩
  have left := AtDepth.ends (countingLevels (e := e) c.depth name c c level)
  have right := AtDepth.ends (countingEnters (e := e) c.depth name c c level)
  exact left.1.trans right.1.symm

theorem countingOnly (solves : hook = e.enter hook) : hook = e.counting := by
  funext name c
  have level : AtDepth [] c.depth c c := ⟨rfl, rfl, List.nil_suffix⟩
  exact (AtDepth.ends (levelsSolve solves _ rfl name c c level)).1

/- An include that is admitted has been noted as such, whatever comes of it. -/
theorem admittedStays (room : ¬ e.settings.includeDepth ≤ c.depth) (f : Failure) :
    e.counting name c ≠ .error f (c.noting (.refused name)) := by
  intro refused
  have level : AtDepth (c.noting (.admitted name)).log c.depth (c.noting (.admitted name)) (c.noting (.admitted name)) :=
    ⟨rfl, rfl, List.suffix_refl _⟩
  have hooks (word : String) : Coupled (AtDepth (c.noting (.admitted name)).log (c.depth + 1)) (e.counting word)
      (e.levels (e.settings.includeDepth.toNat - (c.depth + 1)) word) := countingLevels _ word
  have visited : Coupled (AtDepth (c.noting (.admitted name)).log c.depth) (e.visit e.counting name)
      (e.visit (e.levels (e.settings.includeDepth.toNat - (c.depth + 1))) name) := visitAtDepth hooks
  have stays := (AtDepth.ends (visited _ _ level)).2.later
  rw [← enterAdmitted room, ← countingSolves, refused] at stays
  exact absurd (stays.eq_of_length rfl) (by simp [Counted.reached, Counted.noting])

/- A whole template, where no include is open. -/
def counted (e : Engine) (hook : String → Counting) (t : Template) (s : RunState) :
    EStateM.Result Failure Counted Unit :=
  Counted.carrier.execute e.host hook t ⟨s, 0, []⟩

end Engine

/- Includes nest as deep as the limit allows and no deeper. The engine's way to include is the one solution of its
equation, and is what a render does once the counter is left out. It leaves the counter where it was, it refuses an
include exactly where the limit is exceeded with it, and in a whole render the counter is at all times the number
of includes that are open. -/
theorem includesNest (e : Engine) : ∃ hook : String → Counting,
    (hook = e.enter hook ∧ ∀ other, other = e.enter other → other = hook) ∧
    (∀ name c, (Counted.reached (hook name c)).depth = c.depth) ∧
    (∀ name c, e.settings.includeDepth < c.depth + 1 ↔ hook name c =
      .error (.template (.of (.tooManyIncludes e.settings.includeDepth name))) (c.noting (.refused name))) ∧
    ∀ t s, Counted.forgotten (e.counted hook t s) = Run.execute e.host e.includer t s ∧
      (Counted.reached (e.counted hook t s)).depth = 0 ∧
      ∀ x earlier, x :: earlier <:+ (Counted.reached (e.counted hook t s)).log →
        x.counter = depthOf (x :: earlier) ∧ x.counter ≤ max 0 e.settings.includeDepth ∧
        ∀ name, (x.passage = .refused name → e.settings.includeDepth < depthOf earlier + 1) ∧
          (x.passage = .admitted name → depthOf earlier + 1 ≤ e.settings.includeDepth) := by
  refine ⟨e.counting, ⟨Engine.countingSolves, fun other solves => Engine.countingOnly solves⟩, ?_, ?_, ?_⟩
  · intro name c
    have level : AtDepth [] c.depth c c := ⟨rfl, rfl, List.nil_suffix⟩
    have ends := AtDepth.ends (Engine.countingLevels (e := e) c.depth name c c level)
    exact ends.2.counter
  · intro name c
    by_cases full : e.settings.includeDepth ≤ c.depth
    · refine iff_of_true (by omega) ?_
      rw [Engine.countingSolves]
      exact Engine.enterRefused full
    · exact iff_of_false (by omega) (Engine.admittedStays full _)
  · intro t s
    have begun : Counts e.settings.includeDepth 0 ⟨s, 0, []⟩ s := ⟨rfl, rfl, rfl, .nil⟩
    have ends := Counts.carries.executeCoupled e.host
      (Engine.inclusionCounts Engine.countingSolves e.settings.includeDepth.toNat rfl) t _ _ begun
    rw [Carrier.aloneExecutes] at ends
    obtain ⟨same, counts⟩ := Counts.ends ends
    exact ⟨same, counts.counter, fun x earlier here => counts.orderly.told here⟩

end Stencil
