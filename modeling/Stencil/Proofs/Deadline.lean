import Stencil.Proofs.Lateness
import Stencil.Proofs.Parting
import Stencil.Proofs.Rounding

/-! Time limits. A render with a limit goes hand in hand with one without, or with one that has a greater limit,
until it finds that its time is up. So a limit cuts a render short or makes no difference at all. -/
namespace Stencil

def RenderOptions.limited (options : RenderOptions) (limit : Timeout) : RenderOptions :=
  { options with timeout := limit }

def RunState.limited (s : RunState) (limit : Timeout) (deadline : Binary64) (reads : Nat) : RunState :=
  ⟨{ s.frame with options := s.frame.options.limited limit, deadline := some deadline },
    { s.world with reads := reads }⟩

/- A render with a limit beside one that has a later deadline or none. Two that have a deadline have read the clock
as often. -/
structure Paced (limit : Timeout) (deadline : Binary64) (scopes : List Scope) (s t : RunState) : Prop where
  shut : t.frame.scopes = scopes
  same : ∃ reads, s = t.limited limit deadline reads ∧ (t.frame.deadline = none ∨ reads = t.world.reads)
  later : ∀ d, t.frame.deadline = some d → ∀ now, d.lt now = true → deadline.lt now = true

/- The only failure that the first render has for itself. -/
def Late (limit : Timeout) (e : Failure) (_ : List String) : Prop := e = .template limit.expired

namespace Paced

variable {limit : Timeout} {deadline : Binary64} {scopes : List Scope} {s t : RunState} {host : Host}

theorem callCoupled (c : Callable) (args : List Value) :
    Coupled (Paced limit deadline scopes) (Run.call host c args) (Run.call host c args) := by
  rintro s t ⟨shut, ⟨n, rfl, counted⟩, later⟩
  exact .ok _ ⟨shut, ⟨n, rfl, counted⟩, later⟩

theorem requiring : Requiring host (fun _ => True) (Paced limit deadline) where
  scopes := by
    rintro scopes s t ⟨shut, ⟨n, rfl, -⟩, -⟩
    exact ⟨shut, shut⟩
  strict := by
    rintro scopes s t ⟨-, ⟨n, rfl, -⟩, -⟩
    rfl
  entering := by
    rintro scopes s t scope ⟨shut, ⟨n, rfl, counted⟩, later⟩
    exact ⟨congrArg (scope :: ·) shut, ⟨n, rfl, counted⟩, later⟩
  leaving := by
    rintro scope scopes s t ⟨shut, ⟨n, rfl, counted⟩, later⟩
    exact ⟨congrArg List.tail shut, ⟨n, rfl, counted⟩, later⟩
  writing := by
    rintro scopes s t text ⟨shut, ⟨n, rfl, counted⟩, later⟩
    exact ⟨shut, ⟨n, rfl, counted⟩, later⟩
  finding := by
    rintro scopes s t path ⟨shut, ⟨n, rfl, counted⟩, later⟩
    exact ⟨shut, ⟨n, rfl, counted⟩, later⟩
  lacking := by
    rintro scopes s t path ⟨shut, ⟨n, rfl, counted⟩, later⟩
    exact ⟨shut, ⟨n, rfl, counted⟩, later⟩
  lookup scopes path _ := by
    refine Run.lookupCoupled ?_ callCoupled ?_
    · rintro s t ⟨-, ⟨n, rfl, -⟩, -⟩
      exact ⟨rfl, rfl, rfl, rfl⟩
    · rintro s t v ⟨shut, ⟨n, rfl, counted⟩, later⟩
      exact ⟨shut, ⟨n, rfl, counted⟩, later⟩
  call scopes c args := callCoupled c args

theorem loadCoupled {e : Engine} (text : String) (scopes : List Scope) :
    Coupled (Paced limit deadline scopes) (e.load text) (e.load text) := by
  rintro s t ⟨shut, ⟨n, rfl, counted⟩, later⟩
  have world : (t.limited limit deadline n).world.cache = t.world.cache := rfl
  rw [Engine.loadEnds, Engine.loadEnds, world]
  cases (e.process text true t.world.cache).1 with
  | ok p => exact .ok _ ⟨shut, ⟨n, rfl, counted⟩, later⟩
  | error fault => exact .error _ ⟨shut, ⟨n, rfl, counted⟩, later⟩

/- The first render has found that its time is up. -/
theorem expires (paced : Paced limit deadline scopes s t) :
    Apart (Late limit) scopes (.template limit.expired) s.ticked t := by
  obtain ⟨shut, ⟨n, rfl, -⟩, -⟩ := paced
  exact ⟨shut, rfl, shut, List.prefix_refl _, List.prefix_refl _⟩

/- The time is the only thing that they may see differently. -/
theorem deadlineParts : Parting (Paced limit deadline scopes) (Apart (Late limit) scopes)
    (Run.checkDeadline host) (Run.checkDeadline host) := by
  intro s t paced
  have cut := paced.expires
  obtain ⟨shut, ⟨n, rfl, counted⟩, later⟩ := paced
  have limited : (t.limited limit deadline n).frame.deadline = some deadline := rfl
  have options : (t.limited limit deadline n).frame.options.timeout = limit := rfl
  have reads : (t.limited limit deadline n).world.reads = n := rfl
  rw [Run.checkDeadlineLimited host limited, options, reads]
  cases other : t.frame.deadline with
  | none =>
    rw [Run.checkDeadlineUnlimited host other]
    split
    · exact .apart (.ok cut)
    · exact .together (.ok () ⟨shut, ⟨n + 1, rfl, .inl other⟩, later⟩)
  | some d =>
    have same : n = t.world.reads := counted.resolve_left (by simp [other])
    rw [Run.checkDeadlineLimited host other, ← same]
    by_cases late : deadline.lt (host.clock n) = true
    · rw [if_pos late]
      obtain ⟨-, failed, behind⟩ := cut
      have after : Apart (Late limit) scopes (.template limit.expired) (t.limited limit deadline n).ticked t.ticked :=
        ⟨shut, failed, Behind.upkeep.world _ behind⟩
      split
      · exact .apart (.error trivial after)
      · exact .apart (.ok after)
    · have early : ¬ d.lt (host.clock n) = true := fun late' => late (later d other _ late')
      rw [if_neg late, if_neg early]
      refine .together (.ok () ⟨shut, ⟨n + 1, rfl, .inr ?_⟩, later⟩)
      simp [RunState.ticked, same]

theorem racing : Racing host (Late limit) (Paced limit deadline) where
  toReading := requiring.toReading
  deadline _ := deadlineParts
  require _ _ := .ofCoupled (requiring.requireCoupled fun _ _ => trivial)

theorem includes {e : Engine} : Racing.Includes e.host (Late limit) (Paced limit deadline) e.includer :=
  racing.includes loadCoupled

end Paced

/- A limit gives every render its deadline, and a greater limit none that is earlier. -/
theorem Frame.startPaced {limit other : Timeout} {options : RenderOptions} {x : Binary64}
    (positive : limit.isPositive = true) (number : limit.real? = some x)
    (longer : other.isPositive = true → limit.AtMost other) (vars : Value) (now : Binary64) :
    ∃ f g deadline, Frame.start vars (options.limited limit) now = .ok f ∧
      Frame.start vars (options.limited other) now = .ok g ∧
      ∀ world, Paced limit deadline [] ⟨f, world⟩ ⟨g, world⟩ := by
  have begun : Frame.start vars (options.limited limit) now = .ok ⟨givenVars vars, options.limited limit, "",
      [], [], [], [], now, some (now.add (x.divNat 1000))⟩ := by
    simp [Frame.start, RenderOptions.limited, positive, Timeout.seconds, number, Except.map, bind, Except.bind,
      givenVars, pure, Except.pure]
  cases limited : other.isPositive with
  | false =>
    refine ⟨_, _, now.add (x.divNat 1000), begun, Frame.startUnlimited limited vars now, fun world => ?_⟩
    refine ⟨rfl, ⟨world.reads, rfl, .inl rfl⟩, ?_⟩
    rintro d ⟨⟩
  | true =>
    obtain ⟨x', y, number', other', less⟩ := longer limited
    obtain rfl := Option.some.inj (number.symm.trans number')
    have begun' : Frame.start vars (options.limited other) now = .ok ⟨givenVars vars, options.limited other, "",
        [], [], [], [], now, some (now.add (y.divNat 1000))⟩ := by
      simp [Frame.start, RenderOptions.limited, limited, Timeout.seconds, other', Except.map, bind, Except.bind,
        givenVars, pure, Except.pure]
    refine ⟨_, _, _, begun, begun', fun world => ⟨rfl, ⟨world.reads, rfl, .inr rfl⟩, ?_⟩⟩
    rintro d ⟨⟩ t late
    exact Binary64.addLater (Binary64.divNatMono (by decide) less) late

/- A limit that is too great for a binary number is refused before anything is rendered. -/
theorem Template.renderRefused {limit : Timeout} (positive : limit.isPositive = true) (great : limit.real? = none)
    (t : Template) (host : Host) (includer : Includer) (vars : Value) (options : RenderOptions) (w : World) :
    (t.render host includer vars (options.limited limit) w).1 = .error .tooLarge := by
  have refused : Frame.start vars (options.limited limit) (w.tick host).1 = .error .tooLarge := by
    simp [Frame.start, RenderOptions.limited, positive, Timeout.seconds, great, Except.map, bind, Except.bind]
  simp only [Template.render, Template.begin, refused]
  rfl

def RenderResult.timeless (r : RenderResult) : RenderResult := { r with time := .zero }

/- What a render ends with is the same as without the limit; only the time that it takes may differ. -/
def Unchanged (limited unlimited : Except ValueFault RenderResult) : Prop :=
  limited.map RenderResult.timeless = unlimited.map RenderResult.timeless

/- The limit has cut a render short, whatever the other one ends with. -/
def CutShort (limit : Timeout) (limited unlimited : Except ValueFault RenderResult) : Prop :=
  ∃ r, limited = .ok r ∧ r.output = "" ∧ r.failure = some limit.expired ∧ limit.expired.code = .timeout ∧
    ∀ r', unlimited = .ok r' → r.used <+: r'.used ∧ r.missing <+: r'.missing

/- Whatever is read off a result, save for the time. -/
theorem Unchanged.told {limited unlimited : Except ValueFault RenderResult} (same : Unchanged limited unlimited)
    {α : Type} (read : RenderResult → α) (timeless : ∀ r, read r.timeless = read r) :
    limited.toOption.map read = unlimited.toOption.map read := by
  cases limited with
  | error fault =>
    cases unlimited with
    | error fault' => rfl
    | ok r => cases same
  | ok r =>
    cases unlimited with
    | error fault => cases same
    | ok r' =>
      have same : r.timeless = r'.timeless := Except.ok.inj same
      exact congrArg some ((timeless r).symm.trans ((congrArg read same).trans (timeless r')))

theorem CutShort.output {limit : Timeout} {limited unlimited : Except ValueFault RenderResult}
    (cut : CutShort limit limited unlimited) : limited.toOption.map (·.output) = some "" := by
  obtain ⟨r, rfl, empty, -⟩ := cut
  exact congrArg some empty

/- A render that was cut short and yet has the result of another: then this one fails with the same error. -/
theorem CutShort.unchanged {limit : Timeout} {limited larger unlimited : Except ValueFault RenderResult}
    (cut : CutShort limit limited larger) (same : Unchanged limited unlimited) :
    ∃ r, unlimited = .ok r ∧ r.failure = some limit.expired := by
  obtain ⟨r, rfl, -, failure, -⟩ := cut
  cases unlimited with
  | error fault => cases same
  | ok r' => exact ⟨r', rfl, (congrArg RenderResult.failure (Except.ok.inj same)).symm.trans failure⟩

/- What two renders end with that have gone hand in hand. -/
theorem Paced.concluded {limit : Timeout} {deadline : Binary64} {host : Host}
    {x y : EStateM.Result Failure RunState Unit} (parts : Parts (Paced limit deadline []) (Apart (Late limit) []) x y) :
    Unchanged (Template.concluded host x).1 (Template.concluded host y).1 ∨
      CutShort limit (Template.concluded host x).1 (Template.concluded host y).1 := by
  cases parts with
  | together ends =>
    refine .inl ?_
    cases ends with
    | ok a paced =>
      obtain ⟨-, ⟨n, rfl, -⟩, -⟩ := paced
      rfl
    | error e paced =>
      obtain ⟨-, ⟨n, rfl, -⟩, -⟩ := paced
      cases e <;> rfl
  | apart parted =>
    refine .inr ?_
    cases parted with
    | ok apart =>
      obtain ⟨-, rfl, -, used, missing⟩ := apart
      refine ⟨_, rfl, rfl, rfl, rfl, ?_⟩
      rintro r' ⟨⟩
      exact ⟨used, missing⟩
    | @error f _ _ apart =>
      obtain ⟨-, rfl, -, used, missing⟩ := apart
      refine ⟨_, rfl, rfl, rfl, rfl, ?_⟩
      rintro r' ended
      cases f with
      | template fault =>
        cases ended
        exact ⟨used, missing⟩
      | value fault => cases ended

/- A render under whatever options: of a text, or of a template that was compiled before, with or without templates
to include. -/
inductive Rendering (e : Engine) (vars : Value) (w : World) :
    (RenderOptions → Except ValueFault RenderResult × World) → Prop where
  | text (text : String) : Rendering e vars w fun options => e.render text vars options w
  | template (t : Template) {includer : Includer} (hook : includer = none ∨ includer = e.includer) :
    Rendering e vars w fun options => t.render e.host includer vars options w

section

variable {e : Engine} {limit other : Timeout} {x : Binary64} {vars : Value} {w : World}

theorem Template.paced {includer : Includer}
    (includes : ∀ deadline, Racing.Includes e.host (Late limit) (Paced limit deadline) includer)
    (positive : limit.isPositive = true) (number : limit.real? = some x)
    (longer : other.isPositive = true → limit.AtMost other) (t : Template) (options : RenderOptions) :
    Unchanged (t.render e.host includer vars (options.limited limit) w).1
        (t.render e.host includer vars (options.limited other) w).1 ∨
      CutShort limit (t.render e.host includer vars (options.limited limit) w).1
        (t.render e.host includer vars (options.limited other) w).1 := by
  obtain ⟨f, g, deadline, begun, begun', paced⟩ := Frame.startPaced positive number longer vars (w.tick e.host).1
  rw [renderEnds begun, renderEnds begun']
  exact Paced.concluded (Paced.racing.runParts (includes deadline) t _ _ (paced (w.tick e.host).2))

/- A render with a limit beside one with a greater limit or none. -/
theorem Rendering.paced {render : RenderOptions → Except ValueFault RenderResult × World}
    (rendering : Rendering e vars w render) (positive : limit.isPositive = true) (number : limit.real? = some x)
    (longer : other.isPositive = true → limit.AtMost other) (options : RenderOptions) :
    Unchanged (render (options.limited limit)).1 (render (options.limited other)).1 ∨
      CutShort limit (render (options.limited limit)).1 (render (options.limited other)).1 := by
  cases rendering with
  | text text =>
    simp only [Engine.render]
    cases processed : e.process text true w.cache with
    | mk result cache =>
      cases result with
      | error fault => exact .inl rfl
      | ok p => exact Template.paced (fun _ => Paced.includes) positive number longer p.template options
  | template t hook =>
    rcases hook with rfl | rfl
    · exact Template.paced (fun _ => Racing.noIncludes) positive number longer t options
    · exact Template.paced (fun _ => Paced.includes) positive number longer t options

/- Without a limit it is somebody else who says that the time is up. -/
theorem Rendering.raises {render : RenderOptions → Except ValueFault RenderResult × World}
    (rendering : Rendering e vars w render) (options : RenderOptions) {r : RenderResult} {fault : TemplateError}
    (ended : (render (options.limited (.whole 0))).1 = .ok r) (failed : r.failure = some fault)
    (late : fault.code = .timeout) : e.Raises fault := by
  have unlimited : (options.limited (.whole 0)).timeout.isPositive = false := rfl
  cases rendering with
  | text text =>
    simp only [Engine.render] at ended
    cases processed : e.process text true w.cache with
    | mk result cache =>
      rw [processed] at ended
      cases result with
      | error early =>
        cases ended
        cases failed
        exact absurd late (Engine.processEarly (congrArg Prod.fst processed)).untimely
      | ok p => exact Untimed.renderTimely (.inr rfl) unlimited _ _ _ ended failed late
  | template t hook => exact Untimed.renderTimely hook unlimited _ _ _ ended failed late

end

/- A limit that is a binary number makes no difference at all or cuts the render short. If it makes none, no greater
limit does. There is one exception: a callable or the loader may itself raise the very error that tells of this
limit, and the render ends with it also where it has no limit. -/
theorem limitOnlyCuts {e : Engine} {vars : Value} {w : World}
    {render : RenderOptions → Except ValueFault RenderResult × World} (rendering : Rendering e vars w render)
    {limit : Timeout} {x : Binary64} (positive : limit.isPositive = true) (number : limit.real? = some x)
    (options : RenderOptions) :
    let under := fun limit : Timeout => (render (options.limited limit)).1
    (Unchanged (under limit) (under (.whole 0)) ∨ CutShort limit (under limit) (under (.whole 0))) ∧
      (Unchanged (under limit) (under (.whole 0)) →
        (∀ larger : Timeout, limit.AtMost larger → Unchanged (under larger) (under (.whole 0))) ∨
          e.Raises limit.expired ∧ ∃ r, under (.whole 0) = .ok r ∧ r.failure = some limit.expired) := by
  intro under
  have unlimited : (Timeout.whole 0).isPositive = false := by decide
  have shorter : (Timeout.whole 0).isPositive = true → limit.AtMost (.whole 0) :=
    fun limited => absurd (unlimited.symm.trans limited) (by decide)
  refine ⟨rendering.paced positive number shorter options, fun same => ?_⟩
  by_cases own : ∃ r, under (.whole 0) = .ok r ∧ r.failure = some limit.expired
  · obtain ⟨r, ended, failed⟩ := own
    exact .inr ⟨rendering.raises options ended failed rfl, r, ended, failed⟩
  · refine .inl fun larger more => ?_
    rcases rendering.paced positive number (fun _ => more) options with same' | cut
    · exact same'.symm.trans same
    · exact absurd (cut.unchanged same) own

/- A clock that goes on by a second at every look. -/
def Host.ticking : Host := { Host.still with clock := fun n => .ofRatio false n 1 }

def sampleTicking : Engine := ⟨.standard, .empty, none, .ticking⟩

def sampleRows : Template :=
  ⟨"", .root .start [], ⟨[.iterate .start "x" (.path "xs") [.emit .start "x" (.path "x") []]], [], 0⟩, ["xs"]⟩

def sampleTimed (limit : Int) : Except ValueFault RenderResult :=
  (sampleRows.render .ticking none (.map [(.str "xs", .list [.int 1, .int 2])])
    (RenderOptions.unlimited.limited (.whole limit)) .fresh).1

/- Seven looks at the clock fit into nine seconds, but not into three and a half. -/
theorem limitOnlyCutsTicking : CutShort (.whole 3500) (sampleTimed 3500) (sampleTimed 0) ∧
    Unchanged (sampleTimed 9000) (sampleTimed 0) ∧ Unchanged (sampleTimed 20000) (sampleTimed 0) := by
  have rendering := @Rendering.template sampleTicking (.map [(.str "xs", .list [.int 1, .int 2])]) .fresh
    sampleRows none (.inl rfl)
  have whole : (sampleTimed 0).toOption.map (·.output) = some "12" := by decide +kernel
  have sound : (sampleTimed 0).toOption.bind (·.failure.map (·.code)) = none := by decide +kernel
  have long : (sampleTimed 9000).toOption.map (·.output) = some "12" := by decide +kernel
  have short : (sampleTimed 3500).toOption.map (·.output) = some "" := by decide +kernel
  obtain ⟨x, number⟩ : ∃ x, (Timeout.whole 3500).real? = some x := ⟨_, rfl⟩
  obtain ⟨y, number'⟩ : ∃ y, (Timeout.whole 9000).real? = some y := ⟨_, rfl⟩
  obtain ⟨z, number''⟩ : ∃ z, (Timeout.whole 20000).real? = some z := ⟨_, rfl⟩
  have cut := (limitOnlyCuts rendering (by decide) number .unlimited).1.resolve_left fun same =>
    absurd ((short.symm.trans (same.told _ fun _ => rfl)).trans whole) (by decide)
  have within := limitOnlyCuts rendering (by decide) number' .unlimited
  have same := within.1.resolve_right fun cut => absurd (long.symm.trans cut.output) (by decide)
  have larger := (within.2 same).resolve_right fun ⟨_, r, ended, failed⟩ => by
    have ended : sampleTimed 0 = .ok r := ended
    simp [ended, Except.toOption, failed] at sound
  exact ⟨cut, same, larger (.whole 20000) (Timeout.wholeAtMost (by decide) number' number'')⟩

def sampleLetter : Template := ⟨Digest.sha1 "a", .root .start [.text .start "a"], ⟨[.text "a"], [], 0⟩, []⟩

def sampleLetterUnder (limit : Int) : Except ValueFault RenderResult :=
  (samplePlain.render "a" .null (RenderOptions.unlimited.limited (.whole limit)) .fresh).1

set_option maxRecDepth 4000 in
theorem sampleLetterRenders : ∃ w, ∀ limit, sampleLetterUnder limit = (sampleLetter.render .still samplePlain.includer
    .null (RenderOptions.unlimited.limited (.whole limit)) w).1 := by
  have tokens : Token.scan .standard "a" = .ok [⟨.text, "a", .start, 1⟩, ⟨.eof, "", ⟨1, 2, 1⟩, 1⟩] := by cbv
  have read : Node.ofTokens .standard [⟨.text, "a", .start, 1⟩, ⟨.eof, "", ⟨1, 2, 1⟩, 1⟩] =
      .ok (.root .start [.text .start "a"]) := by cbv
  obtain ⟨p, built, template⟩ : ∃ p, samplePlain.build "a" = .ok p ∧ p.template = sampleLetter :=
    ⟨_, Engine.buildOk.mpr ⟨_, _, _, tokens, read, rfl, rfl⟩, rfl⟩
  have honest : samplePlain.Honest "a" World.fresh.cache := by simp [Engine.Honest, World.fresh, Cache.empty]
  refine ⟨{ World.fresh with cache := (samplePlain.process "a" true World.fresh.cache).2 }, fun limit => ?_⟩
  rw [sampleLetterUnder, Engine.renderBuilt honest built, template]
  rfl

/- A clock that goes on by a second at every look, and a filter that gives up by itself. -/
def Host.impatient : Host :=
  { Host.ticking with call := fun _ _ => .error (.template (Timeout.whole 500).expired) }

def sampleImpatient : Template :=
  ⟨"", .root .start [], ⟨[.text "a", .emit .start "1 | f" (.literal (.int 1)) [⟨"f", .host "f", []⟩]], [], 0⟩, []⟩

def sampleGivenUp (limit : Int) : Except ValueFault RenderResult :=
  (sampleImpatient.render .impatient none .null (RenderOptions.unlimited.limited (.whole limit)) .fresh).1

/- More milliseconds than a binary number can tell. -/
def sampleGreat : Int := 10 ^ 200 * 10 ^ 200

/- Not every limit is a binary number: under one that is too great not even a letter is rendered. And where a filter
raises the error of a limit, a render ends under that limit as it does without one, but not so under a greater one. -/
theorem limitNotOnlyCuts :
    ((Timeout.whole sampleGreat).isPositive = true ∧
      ¬ Unchanged (sampleLetterUnder sampleGreat) (sampleLetterUnder 0) ∧
      ¬ CutShort (.whole sampleGreat) (sampleLetterUnder sampleGreat) (sampleLetterUnder 0)) ∧
    (Timeout.whole 500).isPositive = true ∧ (Timeout.whole 500).AtMost (.whole 1500) ∧
      Unchanged (sampleGivenUp 500) (sampleGivenUp 0) ∧ ¬ Unchanged (sampleGivenUp 1500) (sampleGivenUp 0) := by
  have positive : (Timeout.whole sampleGreat).isPositive = true := by decide
  obtain ⟨w, renders⟩ := sampleLetterRenders
  have refused : sampleLetterUnder sampleGreat = .error .tooLarge :=
    (renders _).trans (Template.renderRefused positive (by decide +kernel) _ _ _ _ _ _)
  obtain ⟨r, shown⟩ : ∃ r, sampleLetterUnder 0 = .ok r := ⟨_, (renders 0).trans rfl⟩
  obtain ⟨x, number⟩ : ∃ x, (Timeout.whole 500).real? = some x := ⟨_, rfl⟩
  obtain ⟨y, number'⟩ : ∃ y, (Timeout.whole 1500).real? = some y := ⟨_, rfl⟩
  refine ⟨⟨positive, ?_, ?_⟩, by decide, Timeout.wholeAtMost (by decide) number number', ?_, ?_⟩
  · rw [refused, shown]
    rintro ⟨⟩
  · rw [refused]
    rintro ⟨r, ⟨⟩, -⟩
  · obtain ⟨r, ended, same⟩ : ∃ r, sampleGivenUp 0 = .ok r ∧
        r.timeless = ⟨"", .zero, [], [], some (Timeout.whole 500).expired⟩ := ⟨_, rfl, rfl⟩
    have rendering := @Rendering.template ⟨.standard, .empty, none, .impatient⟩ .null .fresh sampleImpatient none
      (.inl rfl)
    have shorter : (Timeout.whole 0).isPositive = true → (Timeout.whole 500).AtMost (.whole 0) := by rintro ⟨⟩
    rcases rendering.paced (by decide) number shorter .unlimited with unchanged | cut
    · exact unchanged
    -- Where it was cut short there was nothing used and nothing missing, as in the other one.
    · obtain ⟨⟨output, time, used, missing, failure⟩, short, rfl, rfl, -, prefixes⟩ := cut
      obtain ⟨fewer, fewer'⟩ := prefixes r ended
      have unused : r.used = [] := congrArg RenderResult.used same
      have complete : r.missing = [] := congrArg RenderResult.missing same
      rw [unused] at fewer
      rw [complete] at fewer'
      obtain rfl := List.prefix_nil.mp fewer
      obtain rfl := List.prefix_nil.mp fewer'
      rw [Unchanged, ended]
      exact (congrArg _ short).trans (congrArg Except.ok same.symm)
  · have cut : (sampleGivenUp 1500).toOption.map (·.failure.map (·.text)) =
        some (some "Template rendering timeout (1500ms)") := by decide +kernel
    have own : (sampleGivenUp 0).toOption.map (·.failure.map (·.text)) =
        some (some "Template rendering timeout (500ms)") := by decide +kernel
    exact fun same => absurd ((cut.symm.trans (same.told _ fun _ => rfl)).trans own) (by decide)

end Stencil
