import Stencil.Proofs.Caching
import Stencil.Proofs.Directives
import Stencil.Proofs.Simulation

/-! Templates of texts and outputs, from their characters to what is rendered. Every stage ends an expression
where it was meant to end, so that each output is replaced by its value and the texts stay as they are. -/
namespace Stencil

open Stencil.Expr Text Delimiters

namespace Path

variable {vars v : Value}

theorem stepFalsy {u : Value} {part : String} (falsy : vars.isTruthy = false)
    (ok : step vars part = .ok u) : u = .missing := by
  have empty (index : Int) : element [] index = .missing := by simp [element]
  cases vars with
  | list items | tuple items =>
    obtain rfl : items = [] := by simpa [Value.isTruthy] using falsy
    simp only [step] at ok
    split at ok
    · cases read : readInteger part <;> simp [read, Except.map, empty] at ok
      exact ok.symm
    · exact (Except.ok.inj ok).symm
  | map entries => simp [Value.isTruthy] at falsy
  | _ => exact (Except.ok.inj ok).symm

/- What holds nothing leads nowhere. -/
theorem resolveFalsy {path : String} (falsy : vars.isTruthy = false) (ok : resolve vars path = .ok v) :
    v = .missing := by
  rw [resolve] at ok
  split at ok
  · exact (Except.ok.inj ok).symm
  · rename_i part parts _
    obtain ⟨u, stepped, ok⟩ := boundOk ok
    rw [stepFalsy falsy stepped, walk_missing] at ok
    exact (Except.ok.inj ok).symm

theorem resolveNothing (path : String) : resolve (.map []) path = .ok .missing := by
  rw [resolve]
  split
  · rfl
  · exact walk_missing _

theorem resolveGiven {path : String} (ok : resolve vars path = .ok v) :
    resolve (givenVars vars) path = .ok v := by
  rw [givenVars]
  split
  · exact ok
  · rename_i falsy
    rw [resolveFalsy (by simpa using falsy) ok, resolveNothing]

end Path

/- An output in a template: its expression, what is shown in its place, and the text behind it. -/
structure Slot where
  source : String
  shown : String
  behind : String

namespace Slot

def template (first : String) : List Slot → String
  | [] => first
  | slot :: slots => first ++ "$\x7b " ++ slot.source ++ " \x7d" ++ template slot.behind slots

def filled (first : String) : List Slot → String
  | [] => first
  | slot :: slots => first ++ slot.shown ++ filled slot.behind slots

/- Expressions on the variables alone; nothing changes when they are evaluated. -/
def machine (e : Engine) (vars : Value) : Machine Unit where
  resolve path :=
    match Path.resolve vars path with
    | .ok v => pure v
    | .error fault => throw (.value fault)
  functions := e.registry.functions
  call c args := pure (e.host.apply c args)

/- The source of a slot is an expression, and what is shown for it is its value. -/
structure Fits (e : Engine) (vars : Value) (slot : Slot) (x : Expr) (v : Value) : Prop where
  parsed : Expr.parse slot.source = .ok x
  registered : ∀ name ∈ x.functions, ∃ c, e.registry.get? .function name = some c
  resolved : ∀ path ∈ x.paths, ∃ u, Path.resolve vars path = .ok u
  evaluated : x.eval (machine e vars) () = .ok v ()
  written : (if v.isMissing then .ok "" else v.text) = .ok slot.shown
  bare : Bare slot.behind.toList

variable {e : Engine} {vars v : Value} {slot : Slot} {slots : List Slot} {first : String} {x : Expr}

/- The tokens of a template, and the nodes of its tree. -/
inductive Cut : String → List Slot → List Token → List Node → Prop where
  | ends {p} : Cut "" [] [⟨.eof, "", p, p.offset⟩] []
  | text {first slots ts ns p stop} (others : Cut "" slots ts ns) :
      Cut first slots (⟨.text, first, p, stop⟩ :: ts) (.text p first :: ns)
  | output {slot slots ts ns p stop} (others : Cut slot.behind slots ts ns) :
      Cut "" (slot :: slots) (⟨.output, trim slot.source, p, stop⟩ :: ts)
        (.output p (trim (trim slot.source)) :: ns)

theorem scansText {tail : List Char} (bare : Bare first.toList) (stops : Stops tail)
    (others : ∀ p, ∃ ts ns, Token.scanFrom standard standard.openers p tail = .ok ts ∧ Cut "" slots ts ns)
    (p : Position) : ∃ ts ns,
      Token.scanFrom standard standard.openers p (first.toList ++ tail) = .ok ts ∧ Cut first slots ts ns := by
  cases here : first.toList with
  | nil =>
    obtain rfl : first = "" := String.toList_inj.mp here
    exact others p
  | cons c s =>
    rw [here] at bare
    obtain ⟨ts, ns, ok, cut⟩ := others (p.advanceOver (c :: s))
    have same : String.ofList (c :: s) = first := by rw [← here, String.ofList_toList]
    have taken : (c :: (s ++ tail)).take (s.length + 1) = c :: s := by simp
    have behind : (s ++ tail).drop (s.length + 1 - 1) = tail := by simp
    refine ⟨⟨.text, first, p, p.offset + (s.length + 1)⟩ :: ts, _, ?_, .text cut⟩
    rw [List.cons_append, Token.scanFrom, textPiece bare stops]
    simp only [taken, behind, ok, same, reduceCtorEq, if_false]

theorem scansOutput {tail : List Char} (plain : Plain slot.source.toList)
    (others : ∀ p, ∃ ts ns,
      Token.scanFrom standard standard.openers p tail = .ok ts ∧ Cut slot.behind slots ts ns) (p : Position) :
    ∃ ts ns, Token.scanFrom standard standard.openers p
        ('$' :: '\x7b' :: ' ' :: (slot.source.toList ++ ' ' :: '\x7d' :: tail)) = .ok ts ∧
      Cut "" (slot :: slots) ts ns := by
  have behind : ('\x7b' :: ' ' :: (slot.source.toList ++ ' ' :: '\x7d' :: tail)).drop
      (slot.source.toList.length + 5 - 1) = tail := by simp
  rw [Token.scanFrom, outputPiece plain]
  simp only [behind]
  generalize p.advanceOver _ = next
  obtain ⟨ts, ns, ok, cut⟩ := others next
  refine ⟨⟨.output, trim slot.source, p, p.offset + (slot.source.toList.length + 5)⟩ :: ts, _, ?_,
    .output cut⟩
  simp only [ok, reduceCtorEq, if_false]
  rfl

theorem scansTemplate (bare : Bare first.toList)
    (plain : ∀ slot ∈ slots, Plain slot.source.toList ∧ Bare slot.behind.toList) (p : Position) :
    ∃ ts ns, Token.scanFrom standard standard.openers p (template first slots).toList = .ok ts ∧
      Cut first slots ts ns := by
  induction slots generalizing first p with
  | nil =>
    have done : ∀ p, ∃ ts ns, Token.scanFrom standard standard.openers p [] = .ok ts ∧ Cut "" [] ts ns :=
      fun p => ⟨_, _, by rw [Token.scanFrom], .ends⟩
    simpa [template] using scansText bare (.inl rfl) done p
  | cons slot slots ih =>
    obtain ⟨inner, behind⟩ := plain slot (by simp)
    have shape : (template first (slot :: slots)).toList = first.toList ++ '$' :: '\x7b' :: ' ' ::
        (slot.source.toList ++ ' ' :: '\x7d' :: (template slot.behind slots).toList) := by
      simp [template]
    rw [shape]
    -- The text ends at the directive, the directive at its own brace, and the rest is a template again.
    refine scansText bare (.inr ⟨_, rfl⟩) (fun p => ?_) p
    exact scansOutput inner (ih behind fun other member => plain other (List.mem_cons_of_mem _ member)) p

theorem Cut.last {ts : List Token} {ns : List Node} (cut : Cut first slots ts ns) :
    ts.getLast?.map (·.kind) = some .eof := by
  induction cut with
  | ends => rfl
  | text _ ih | output _ ih =>
    obtain ⟨t, last, kind⟩ := Option.map_eq_some_iff.mp ih
    simp [List.getLast?_cons, last, kind]

theorem Cut.read {ts : List Token} {ns : List Node} (cut : Cut first slots ts ns)
    (solid : ∀ slot ∈ slots, allBlank (trim slot.source) = false) (done : List Node) :
    Node.read .standard done [] ts = .ok (done.reverse ++ ns) := by
  induction cut generalizing done with
  | ends => simp [Node.read]
  | text _ ih => simp [Node.read, Node.leaf, ih solid]
  | @output slot _ _ _ _ _ _ ih =>
    have here := solid slot (by simp)
    have others := ih fun other member => solid other (List.mem_cons_of_mem _ member)
    simp [Node.read, Node.leaf, here, others, Node.trimmed]

/- Nothing but the variables says what a path stands for. -/
structure Alone (options : RenderOptions) : Prop where
  defaults : options.defaults = .map []
  handlers : options.handlers = .map []

theorem rawAlone {options : RenderOptions} {path : String} (alone : Alone options)
    (ok : Path.resolve vars path = .ok v) : rawValue (givenVars vars) options.defaults path = .ok v := by
  have none : Path.holds (.map []) path = .ok false := rfl
  simp only [rawValue, Path.resolveGiven ok, alone.defaults, none, Path.resolveNothing, bind, Except.bind,
    Bool.false_eq_true, if_false]
  split
  · rename_i absent
    cases v <;> simp [Value.isMissing] at absent
    rfl
  · rfl

theorem outerAlone {host : Host} {options : RenderOptions} {path : String} (alone : Alone options)
    (ok : Path.resolve vars path = .ok v) : outerValue host (givenVars vars) options path = .ok v := by
  have none : Path.holds (.map []) path = .ok false := rfl
  simp only [outerValue, rawAlone alone ok, alone.handlers, none, bind, Except.bind, Bool.false_eq_true,
    if_false]
  split <;> rfl

variable {options : RenderOptions}

abbrev setting (e : Engine) (vars : Value) (options : RenderOptions) : Setting :=
  ⟨e.host, e.registry, givenVars vars, options⟩

theorem plainText (v : Value) : v.plain.text = if v.isMissing then .ok "" else v.text := by
  cases v with
  | missing => rfl
  | _ => simp [Value.plain, Value.isMissing]

theorem Fits.evaluates (fits : slot.Fits e vars x v) (alone : Alone options) (p : Position) (t : Trace) :
    ∃ calls, (setting e vars options).evaluate [] p x t = .ok v ⟨t.text, calls⟩ := by
  let same (_ : Unit) (after : Trace) : Prop := after.text = t.text
  have agree : Agree same (machine e vars)
      ⟨(setting e vars options).read [], e.registry.functions, (setting e vars options).call⟩
      x.paths x.functions := by
    refine ⟨fun path member => ?_, fun _ _ => rfl, fun c args => ?_⟩
    · obtain ⟨u, leads⟩ := fits.resolved path member
      obtain ⟨rest, parts⟩ := parseRooted fits.parsed member
      simp only [machine, leads, Setting.read, parts, List.findSome?_nil, outerAlone alone leads]
      exact .ofPure u
    · rintro _ after kept
      exact .ok _ kept
  have ends := evalCoupled x agree () t rfl
  rw [fits.evaluated] at ends
  simp only [Setting.evaluate, EStateM.adaptExcept]
  generalize x.eval _ t = told at ends
  cases ends with
  | @ok _ _ after kept => exact ⟨after.calls, by rw [← kept]⟩

theorem filledFirst (first : String) (slots : List Slot) : filled first slots = first ++ filled "" slots := by
  cases slots <;> simp [filled, String.append_assoc]

theorem Fits.tells (fits : slot.Fits e vars x v) (alone : Alone options) (p : Position) (t : Trace) :
    ∃ calls, (setting e vars options).tell (.output p (trim (trim slot.source))) [] t =
      .ok () ⟨t.text ++ slot.shown, calls⟩ := by
  have parsed := Output.parseAlone (parseStripped (parseStripped fits.parsed))
  have written := (plainText v).trans fits.written
  obtain ⟨calls, evaluated⟩ := fits.evaluates alone p t
  refine ⟨calls, ?_⟩
  simp only [Setting.tell, parsed, Setting.through, bind, EStateM.bind, evaluated, pure, EStateM.pure,
    written, Setting.accept]
  rfl

/- The interpretation of the tree puts each value in its place. -/
theorem Cut.tells {ts : List Token} {ns : List Node} (cut : Cut first slots ts ns)
    (fits : ∀ slot ∈ slots, ∃ x v, slot.Fits e vars x v) (alone : Alone options) (t : Trace) :
    ∃ calls, (setting e vars options).tellAll ns [] t =
      .ok () ⟨t.text ++ filled first slots, calls⟩ := by
  induction cut generalizing t with
  | ends => exact ⟨t.calls, by simp [filled]; rfl⟩
  | @text first slots _ _ p _ _ ih =>
    let said : Trace := ⟨t.text ++ first, t.calls⟩
    obtain ⟨calls, others⟩ := ih fits said
    have here : (setting e vars options).tell (.text p first) [] t = .ok () said := rfl
    refine ⟨calls, ?_⟩
    simp only [Setting.tellAll, bind, EStateM.bind, here, others, said]
    rw [filledFirst first, String.append_assoc]
  | @output slot slots _ _ p _ _ ih =>
    obtain ⟨x, v, fit⟩ := fits slot (by simp)
    obtain ⟨between, here⟩ := fit.tells alone p t
    obtain ⟨calls, others⟩ := ih (fun other member => fits other (List.mem_cons_of_mem _ member))
      ⟨t.text ++ slot.shown, between⟩
    refine ⟨calls, ?_⟩
    simp only [Setting.tellAll, bind, EStateM.bind, here, others]
    simp [filled, String.append_assoc]

/- The tree compiles, and all that it depends on can be looked up. -/
theorem Cut.compiles {ts : List Token} {ns : List Node} (cut : Cut first slots ts ns)
    (fits : ∀ slot ∈ slots, ∃ x v, slot.Fits e vars x v) {g : Gathered}
    (leads : ∀ path ∈ g.paths, ∃ u, Path.resolve vars path = .ok u) :
    ∃ is k, Procedure.compileNodes e.registry [] g ns = .ok (is, k) ∧
      ∀ path ∈ k.paths, ∃ u, Path.resolve vars path = .ok u := by
  induction cut generalizing g with
  | ends => exact ⟨[], g, rfl, leads⟩
  | @text first _ _ _ _ _ _ ih =>
    obtain ⟨is, k, ok, leads'⟩ := ih fits leads
    refine ⟨.text first :: is, k, ?_, leads'⟩
    simp only [Procedure.compileNodes, Procedure.compileNode, bind, Except.bind, ok]
    rfl
  | @output slot slots _ _ p _ _ ih =>
    obtain ⟨x, v, fit⟩ := fits slot (by simp)
    have parsed := Output.parseAlone (parseStripped (parseStripped fit.parsed))
    obtain ⟨g', registered, added⟩ := Procedure.registersKnown [] p g fit.registered
    have leads' : ∀ path ∈ g'.paths, ∃ u, Path.resolve vars path = .ok u := fun path member =>
      (added path member).elim (leads path) (fit.resolved path)
    obtain ⟨is, k, ok, leads''⟩ := ih (fun other member => fits other (List.mem_cons_of_mem _ member)) leads'
    refine ⟨.emit p (trim (trim (trim slot.source))) x [] :: is, k, ?_, leads''⟩
    simp only [Procedure.compileNodes, Procedure.compileNode, bind, Except.bind, parsed, Except.mapError,
      registered, Procedure.bindFilters, pure, Except.pure, ok]

theorem Cut.free {ts : List Token} {ns : List Node} (cut : Cut first slots ts ns) (p : Position) :
    (Node.root p ns).IncludeFree := by
  have none : ∀ q name, Node.inclusion q name ∉ Node.allOf ns := by
    induction cut with
    | ends => simp [Node.allOf]
    | text _ ih | output _ ih => simpa [Node.allOf, Node.all] using ih
  intro q name member
  simp [Node.all, none q name] at member

/- Cutting, reading and compiling a template of outputs that fit. -/
theorem builds (settings : e.settings = .standard) (bare : Bare first.toList)
    (fits : ∀ slot ∈ slots, ∃ x v, slot.Fits e vars x v) :
    ∃ ts ns c p, Cut first slots ts ns ∧ Procedure.compile e.registry (.root .start ns) = .ok c ∧
      (∀ path ∈ c.dependencies, ∃ u, Path.resolve vars path = .ok u) ∧
      e.build (template first slots) = .ok p ∧
      p.template = ⟨Digest.sha1 (template first slots), .root .start ns, c.procedure, c.dependencies⟩ := by
  have plain : ∀ slot ∈ slots, Plain slot.source.toList ∧ Bare slot.behind.toList := by
    intro slot member
    obtain ⟨x, v, fit⟩ := fits slot member
    obtain ⟨ls, lexed, -⟩ := parseReads.mp fit.parsed
    exact ⟨.ofLexes lexed, fit.bare⟩
  have solid : ∀ slot ∈ slots, allBlank (trim slot.source) = false := by
    intro slot member
    obtain ⟨x, v, fit⟩ := fits slot member
    exact parseSolid (parseStripped fit.parsed)
  obtain ⟨ts, ns, scanned, cut⟩ := scansTemplate bare plain .start
  have scanned : Token.scan e.settings.delimiters (template first slots) = .ok ts := by
    rw [settings]
    exact scanned
  have read : Node.ofTokens e.settings.limits ts = .ok (.root .start ns) := by
    have all : Node.read .standard [] [] ts = .ok ns := cut.read solid []
    simp [Node.ofTokens, cut.last, settings, Settings.standard, all]
  obtain ⟨is, k, compiled, leads⟩ := @Cut.compiles e vars _ _ _ _ cut fits .nothing (by simp [Gathered.nothing])
  have ok : Procedure.compile e.registry (.root .start ns) =
      .ok ⟨⟨is, k.functions, e.registry.revision⟩, k.paths⟩ := by
    simp only [Procedure.compile, bind, Except.bind, compiled, pure, Except.pure]
  exact ⟨ts, ns, _, _, cut, ok, leads, Engine.buildOk.mpr ⟨ts, _, _, scanned, read, ok, rfl⟩, rfl⟩

/- The run writes what the interpretation of the tree tells. -/
theorem executesTree (includer : Includer) (id : String) {tree : Node} {c : Procedure.Compiled} {told : Trace}
    (ok : Procedure.compile e.registry tree = .ok c) (free : tree.IncludeFree)
    (tells : (setting e vars options).interpret tree ⟨"", []⟩ = .ok () told)
    (leads : ∀ path ∈ c.dependencies, ∃ u, Path.resolve vars path = .ok u)
    (lenient : options.strict.isOn = false) (unlimited : options.timeout.isPositive = false)
    (alone : Alone options) {now : Binary64} {f : Frame} (begun : Frame.start vars options now = .ok f)
    (w : World) :
    ∃ s, Run.execute e.host includer ⟨id, tree, c.procedure, c.dependencies⟩ ⟨f, w⟩ = .ok () s ∧
      s.frame.output = told.text ∧ s.frame.options = options ∧ s.frame.deadline = none := by
  obtain ⟨s, required⟩ : ∃ s, Run.require e.host c.dependencies ⟨f, w⟩ = .ok () s := by
    rw [Frame.startUnlimited unlimited] at begun
    cases begun
    refine Run.requireSettled lenient rfl fun path member => ?_
    obtain ⟨u, here⟩ := leads path member
    exact Run.settledRaw (rawAlone alone here) (.inr (by rw [alone.handlers]; rfl))
  obtain ⟨prepared, -⟩ :=
    @preparedRequired e.registry e.host ⟨c.dependencies, []⟩ _ _ _ _ _ _ lenient unlimited begun required
  have ends : Ends (fun t s' => s' = s.telling t) ((setting e vars options).interpret tree ⟨"", []⟩)
      (Run.execute e.host includer ⟨id, tree, c.procedure, c.dependencies⟩ ⟨f, w⟩) :=
    executesTold id ok free lenient unlimited begun required
  rw [tells] at ends
  generalize Run.execute e.host includer _ ⟨f, w⟩ = ran at ends ⊢
  cases ends with
  | ok _ shows =>
    subst shows
    exact ⟨_, rfl, rfl, prepared.options, prepared.unlimited⟩

theorem executes (includer : Includer) (id : String) {ts : List Token} {ns : List Node}
    {c : Procedure.Compiled} (cut : Cut first slots ts ns)
    (fits : ∀ slot ∈ slots, ∃ x v, slot.Fits e vars x v)
    (ok : Procedure.compile e.registry (.root .start ns) = .ok c)
    (leads : ∀ path ∈ c.dependencies, ∃ u, Path.resolve vars path = .ok u)
    (lenient : options.strict.isOn = false) (unlimited : options.timeout.isPositive = false)
    (alone : Alone options) {now : Binary64} {f : Frame} (begun : Frame.start vars options now = .ok f)
    (w : World) :
    ∃ s, Run.execute e.host includer ⟨id, .root .start ns, c.procedure, c.dependencies⟩ ⟨f, w⟩ = .ok () s ∧
      s.frame.output = filled first slots ∧ s.frame.options = options ∧ s.frame.deadline = none := by
  obtain ⟨calls, told⟩ := cut.tells fits alone ⟨"", []⟩
  obtain ⟨s, executed, output, kept⟩ :=
    executesTree includer id ok (cut.free .start) told leads lenient unlimited alone begun w
  exact ⟨s, executed, by simpa using output, kept⟩

theorem runs {host : Host} {includer : Includer} {t : Template} {s s' : RunState}
    (executed : Run.execute host includer t s = .ok () s') (unlimited : s'.frame.deadline = none)
    (unescaped : s'.frame.options.escape.isOn = false) :
    t.run host includer s = (.ok s'.frame.output, s') := by
  simp only [Template.run, bind, EStateM.bind, executed, Run.checkDeadlineUnlimited host unlimited, unescaped,
    Bool.false_eq_true, if_false]

/- Each output gives way to its value, whatever braces, quotes and bars stand in its expression. A template
without outputs stays as it is. -/
theorem interpolates (settings : e.settings = .standard) (bare : Bare first.toList)
    (fits : ∀ slot ∈ slots, ∃ x v, slot.Fits e vars x v) (lenient : options.strict.isOn = false)
    (unlimited : options.timeout.isPositive = false) (unescaped : options.escape.isOn = false)
    (alone : Alone options) {w : World} (honest : e.Honest (template first slots) w.cache) :
    ∃ r w', e.render (template first slots) vars options w = (.ok r, w') ∧
      r.output = filled first slots ∧ r.failure = none := by
  obtain ⟨ts, ns, c, p, cut, ok, leads, built, same⟩ := builds settings bare fits
  rw [Engine.renderBuilt honest built, same, Template.render, Template.begin]
  generalize World.tick e.host _ = ticked
  obtain ⟨now, w⟩ := ticked
  have begun := Frame.startUnlimited unlimited vars now
  obtain ⟨s, executed, output, options', timeless⟩ :=
    executes e.includer (Digest.sha1 (template first slots)) cut fits ok leads lenient unlimited alone begun w
  have ran := runs executed timeless (by rw [options', unescaped])
  simp only [begun, Except.map, ran]
  exact ⟨_, _, rfl, output, rfl⟩

def sampleEngine : Engine := ⟨.standard, ⟨[], [("same", .host "same")], 0⟩, none, .still⟩

/- Nothing in these texts ends an expression. -/
def sampleSlots : List Slot := [⟨"x || same('\x7d | $\x7b \\'')", "\x7d | $\x7b '", " b "⟩, ⟨"y", "c", ""⟩]

def sampleGiven : Value := .map [(.str "y", .str "c")]

set_option maxRecDepth 4000 in
theorem interpolatesBrace :
    (template "a " sampleSlots = "a $\x7b x || same('\x7d | $\x7b \\'') \x7d b $\x7b y \x7d" ∧
      filled "a " sampleSlots = "a \x7d | $\x7b ' b c") ∧
    ∃ r w', sampleEngine.render (template "a " sampleSlots) sampleGiven .unlimited .fresh = (.ok r, w') ∧
      r.output = filled "a " sampleSlots ∧ r.failure = none := by
  have first : Expr.parse "x || same('\x7d | $\x7b \\'')" =
      .ok (.or (.path "x") (.call "same" [.literal (.str "\x7d | $\x7b '")])) := by cbv
  have second : Expr.parse "y" = .ok (.path "y") := by cbv
  have bare (s : List Char) (none : '\x7b' ∉ s) : Bare s := fun inside => none (inside.subset (by simp))
  have absent : Path.resolve sampleGiven "x" = .ok .missing := by cbv
  have given : Path.resolve sampleGiven "y" = .ok (.str "c") := by cbv
  have fits : ∀ slot ∈ sampleSlots, ∃ x v, slot.Fits sampleEngine sampleGiven x v := by
    simp only [sampleSlots, List.forall_mem_cons]
    refine ⟨⟨_, .str "\x7d | $\x7b '", first, ?_, ?_, ?_, rfl, bare _ (by decide)⟩,
      ⟨_, .str "c", second, ?_, ?_, ?_, rfl, bare _ (by decide)⟩, by simp⟩
    · simp [Expr.functions, functionsOf, sampleEngine, Registry.get?, Registry.bindings]
    · simp [Expr.paths, pathsOf, absent]
    · simp only [Expr.eval, machine, absent]
      rfl
    · simp [Expr.functions]
    · simp [Expr.paths, given]
    · simp only [Expr.eval, machine, given]
      rfl
  refine ⟨⟨by decide +kernel, by decide +kernel⟩, ?_⟩
  exact interpolates rfl (bare _ (by decide)) fits rfl (by decide) rfl ⟨rfl, rfl⟩
    (fun entry member => by cases member)

end Slot
end Stencil
