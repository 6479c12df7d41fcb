import Stencil.Proofs.Abreast
import Stencil.Proofs.Interpolation
import Stencil.Proofs.Printing
import Stencil.Proofs.Strictness

/-! Including is inlining, for renders without strict mode and without a time limit, as long as no index in a path has
too many digits to be read. -/
namespace Stencil

namespace Engine

open Node Stencil.Expr Text Delimiters

variable {e : Engine} {text : String} {options : RenderOptions} {w : World}

/- A text that includes others renders as the tree in which these stand in the place of their includes. That tree
can be compiled, and the only includes that are left in it lead nowhere. -/
theorem includingInlines (inlinable : e.Inlinable Path.Plain text) (distinct : (e.reached text).InjOn Digest.sha1)
    (honest : ∀ other ∈ e.reached text, e.Honest other w.cache) (lenient : options.strict.isOn = false)
    (unlimited : options.timeout.isPositive = false) (mapped : options.Mapped) (vars : Value) :
    ∃ p c, e.build text = .ok p ∧ (∀ m ∈ (e.inlined p.template.tree).all, e.Spent m) ∧
      Procedure.compile e.registry (e.inlined p.template.tree) = .ok c ∧
      ∀ id w', (Template.render e.host e.includer
          ⟨id, e.inlined p.template.tree, c.procedure, c.dependencies⟩ vars options w').1.map RenderResult.outcome =
        (e.render text vars options w).1.map RenderResult.outcome := by
  obtain ⟨p, built⟩ := inlinable.builds .self
  obtain ⟨c, compiled, -⟩ := inlinable.compiles built
  refine ⟨p, c, built, inlinable.left built, compiled, fun id w' => ?_⟩
  have known : text ∈ e.reached text := ⟨0, .self⟩
  have after : ∀ other ∈ e.reached text, e.Honest other (e.process text true w.cache).2 :=
    fun other inside => (honest other inside).kept (distinct inside known)
  rw [renderBuilt (honest text known) built, Template.renderEnds (Frame.startUnlimited unlimited _ _),
    Template.renderEnds (Frame.startUnlimited unlimited _ _)]
  have runs := Coupled.bind (Abreast.executeCoupled inlinable distinct built compiled id)
    fun _ => Abreast.stepwise.deadline []
  exact Template.concludedAbreast (runs _ _ (.begun lenient mapped (givenVars vars) _ _ _ after))

/- Where all includes lead to one text that includes nothing. -/
theorem reachedOnce {part : String} {q : Processed} (found : ∀ name, e.source name = .ok part)
    (second : e.build part = .ok q) (free : ∀ p name, .inclusion p name ∉ q.template.tree.all) {k : Nat}
    {other : String} (reached : e.Reaches text k other) : k = 0 ∧ other = text ∨ k = 1 ∧ other = part := by
  induction reached with
  | self => exact .inl ⟨rfl, rfl⟩
  | @through _ _ p _ name _ _ built member source ih =>
    rcases ih with ⟨rfl, -⟩ | ⟨-, rfl⟩
    · rw [found] at source
      cases source
      exact .inr ⟨rfl, rfl⟩
    · rw [second] at built
      cases built
      exact absurd member (free _ _)

theorem inlinableOnce {part : String} {p q : Processed} {paths : String → Prop}
    (found : ∀ name, e.source name = .ok part) (first : e.build text = .ok p) (second : e.build part = .ok q)
    (free : ∀ p name, .inclusion p name ∉ q.template.tree.all) (room : 0 < e.settings.includeDepth.toNat)
    (reads : ∀ n ∈ p.template.tree.all ++ q.template.tree.all, ∀ path ∈ n.reads, paths path) :
    e.Inlinable paths text where
  builds reached := by
    rcases reachedOnce found second free reached with ⟨-, rfl⟩ | ⟨-, rfl⟩
    · exact ⟨p, first⟩
    · exact ⟨q, second⟩
  shallow reached built member := by
    rcases reachedOnce found second free reached with ⟨rfl, -⟩ | ⟨-, rfl⟩
    · exact room
    · rw [second] at built
      cases built
      exact absurd member (free _ _)
  reads reached built member inside := by
    rcases reachedOnce found second free reached with ⟨-, rfl⟩ | ⟨-, rfl⟩
    · rw [first] at built
      cases built
      exact reads _ (List.mem_append_left _ member) _ inside
    · rw [second] at built
      cases built
      exact reads _ (List.mem_append_right _ member) _ inside

/- A template that is nothing but an output. -/
theorem outputBuilds (settings : e.settings = .standard) {source : String} {x : Expr}
    (parsed : Expr.parse source = .ok x) (known : ∀ name ∈ x.functions, ∃ c, e.registry.get? .function name = some c) :
    ∃ p inner, e.build (Slot.template "" [⟨source, "", ""⟩]) = .ok p ∧
      p.template.tree = .root .start [.output .start inner] ∧ ∃ shown, Output.parse inner = .ok ⟨shown, x, []⟩ := by
  obtain ⟨ls, lexed, -⟩ := parseReads.mp parsed
  have shape : (Slot.template "" [⟨source, "", ""⟩]).toList =
      '$' :: '\x7b' :: ' ' :: (source.toList ++ ' ' :: '\x7d' :: []) := by
    simp [Slot.template]
  obtain ⟨p, tokens⟩ : ∃ p : Position, Token.scan e.settings.delimiters (Slot.template "" [⟨source, "", ""⟩]) =
      .ok [⟨.output, trim source, .start, 0 + (source.toList.length + 5)⟩, ⟨.eof, "", p, p.offset⟩] := by
    have nothing : ('\x7b' :: ' ' :: (source.toList ++ [' ', '\x7d'])).drop (source.toList.length + 5 - 1) = [] := by
      simp
    rw [settings, Token.scan, shape]
    change ∃ p : Position, Token.scanFrom standard standard.openers .start _ = _
    rw [Token.scanFrom, outputPiece (.ofLexes lexed)]
    simp only [nothing, Token.scanFrom, reduceCtorEq, if_false]
    exact ⟨_, rfl⟩
  have solid : allBlank (trim source) = false := parseSolid (parseStripped parsed)
  have read : Node.ofTokens e.settings.limits [⟨.output, trim source, .start, 0 + (source.toList.length + 5)⟩,
      ⟨.eof, "", p, p.offset⟩] = .ok (.root .start [.output .start (trim (trim source))]) := by
    simp [Node.ofTokens, Node.read, Node.leaf, solid, Node.trimmed, settings, Settings.standard]
  have item := Output.parseAlone (parseStripped (parseStripped parsed))
  obtain ⟨g, registered, -⟩ := Procedure.registersKnown [] .start .nothing known
  have compiled : Procedure.compile e.registry (.root .start [.output .start (trim (trim source))]) =
      .ok ⟨⟨[.emit .start (trim (trim (trim source))) x []], g.functions, e.registry.revision⟩, g.paths⟩ := by
    simp only [Procedure.compile, Procedure.compileNodes, Procedure.compileNode, item, bind, Except.bind,
      Except.mapError, registered, Procedure.bindFilters, pure, Except.pure]
  exact ⟨_, _, buildOk.mpr ⟨_, _, _, tokens, read, compiled, rfl⟩, rfl, _, item⟩

/- An engine whose includes all lead to one output. -/
def sampleOutput (source : String) : Engine :=
  ⟨.standard, .empty, some fun _ => .ok (some (Slot.template "" [⟨source, "", ""⟩])), .still⟩

/- Its inlined trees have the output in the place of every include. -/
theorem outputInlines {source : String} {x : Expr} (parsed : Expr.parse source = .ok x) (known : x.functions = []) :
    ∃ inner shown, Output.parse inner = .ok ⟨shown, x, []⟩ ∧ ∀ children,
      (sampleOutput source).inlined (.root .start children) =
        .root .start (spliceAll (fun _ => some [.output .start inner]) children) := by
  obtain ⟨q, inner, built, tree, shown, item⟩ := @outputBuilds (sampleOutput source) rfl _ _ parsed (by simp [known])
  have found (name : String) : (sampleOutput source).source name = .ok (Slot.template "" [⟨source, "", ""⟩]) := rfl
  have all : (sampleOutput source).included (9 + 1) = fun _ => some [.output .start inner] := by
    funext name
    simp only [included, found, built, tree, body, spliceAll, splice, List.append_nil]
  exact ⟨inner, shown, item, fun children => congrArg (fun f => Node.root .start (spliceAll f children)) all⟩

/- An include in a loop. -/
def sampleEach : String := "$\x7b#each x in xs\x7d$\x7binclude row\x7d$\x7b/each\x7d"

def sampleXs : Value := .map [(.str "xs", .list [.str "a", .str "b"])]

set_option maxRecDepth 4000 in
theorem sampleEachBuilt : ∃ p, (sampleOutput "x").build sampleEach = .ok p ∧
    p.template.tree = .root .start [.loop ⟨1, 1, 0⟩ "x" "xs" [.inclusion ⟨1, 17, 16⟩ "row"]] := by
  have tokens : Token.scan .standard sampleEach = .ok [⟨.loopStart, "x in xs", ⟨1, 1, 0⟩, 16⟩,
      ⟨.inclusion, "row", ⟨1, 17, 16⟩, 30⟩, ⟨.loopEnd, "", ⟨1, 31, 30⟩, 38⟩, ⟨.eof, "", ⟨1, 39, 38⟩, 38⟩] := by cbv
  have read : Node.ofTokens .standard [⟨.loopStart, "x in xs", ⟨1, 1, 0⟩, 16⟩,
      ⟨.inclusion, "row", ⟨1, 17, 16⟩, 30⟩, ⟨.loopEnd, "", ⟨1, 31, 30⟩, 38⟩, ⟨.eof, "", ⟨1, 39, 38⟩, 38⟩] =
      .ok (.root .start [.loop ⟨1, 1, 0⟩ "x" "xs" [.inclusion ⟨1, 17, 16⟩ "row"]]) := by cbv
  have list : Expr.parse "xs" = .ok (.path "xs") := by cbv
  obtain ⟨c, compiled⟩ : ∃ c, Procedure.compile .empty
      (.root .start [.loop ⟨1, 1, 0⟩ "x" "xs" [.inclusion ⟨1, 17, 16⟩ "row"]]) = .ok c := by
    simp only [Procedure.compile, Procedure.compileNodes, Procedure.compileNode, Procedure.compileExpr, list]
    exact ⟨_, rfl⟩
  exact ⟨_, buildOk.mpr ⟨_, _, c, tokens, read, compiled, rfl⟩, rfl⟩

set_option maxRecDepth 4000 in
theorem sampleRowBuilt : ∃ p inner, (sampleOutput "x").build (Slot.template "" [⟨"x", "", ""⟩]) = .ok p ∧
    p.template.tree = .root .start [.output .start inner] ∧ ∃ shown, Output.parse inner = .ok ⟨shown, .path "x", []⟩ :=
  outputBuilds rfl (by cbv) (by simp [Expr.functions])

set_option maxRecDepth 4000 in
theorem sampleRowsInlinable : (sampleOutput "x").Inlinable Path.Plain sampleEach := by
  obtain ⟨p, first, tree⟩ := sampleEachBuilt
  obtain ⟨q, inner, second, tree', shown, item⟩ := sampleRowBuilt
  have list : Expr.parse "xs" = .ok (.path "xs") := by cbv
  have plain : Path.Plain "xs" ∧ Path.Plain "x" := by
    have parts : Path.segments "xs" = ["xs"] ∧ Path.segments "x" = ["x"] := by constructor <;> cbv
    refine ⟨⟨by simp [Path.Ascii], ?_⟩, ⟨by simp [Path.Ascii], ?_⟩⟩ <;> simp [parts, ValueFault.maxDigits]
  refine inlinableOnce (fun _ => rfl) first second ?_ (by decide) ?_
  · simp [tree', Node.all, Node.allOf]
  · simp [tree, tree', Node.all, Node.allOf, Node.reads, list, item, Expr.paths, plain]

set_option maxRecDepth 4000 in
theorem sampleRowsDistinct : ((sampleOutput "x").reached sampleEach).InjOn Digest.sha1 := by
  obtain ⟨q, inner, second, tree, -⟩ := sampleRowBuilt
  have free : ∀ p name, .inclusion p name ∉ q.template.tree.all := by simp [tree, Node.all, Node.allOf]
  have only : ∀ other ∈ (sampleOutput "x").reached sampleEach,
      other = sampleEach ∨ other = Slot.template "" [⟨"x", "", ""⟩] := by
    rintro other ⟨k, reached⟩
    exact (reachedOnce (fun _ => rfl) second free reached).imp And.right And.right
  have told : Digest.sha1 sampleEach ≠ Digest.sha1 (Slot.template "" [⟨"x", "", ""⟩]) := by cbv
  intro other inside other' inside' same
  rcases only other inside with rfl | rfl <;> rcases only other' inside' with rfl | rfl
  · rfl
  · exact absurd same told
  · exact absurd same.symm told
  · rfl

set_option maxRecDepth 4000 in
theorem sampleRowsInlined {p : Processed} (built : (sampleOutput "x").build sampleEach = .ok p) :
    ∃ inner shown, (sampleOutput "x").inlined p.template.tree =
        .root .start [.loop ⟨1, 1, 0⟩ "x" "xs" [.output .start inner]] ∧
      Procedure.compile .empty ((sampleOutput "x").inlined p.template.tree) =
        .ok ⟨⟨[.iterate ⟨1, 1, 0⟩ "x" (.path "xs") [.emit .start shown (.path "x") []]], [], 0⟩, ["xs"]⟩ := by
  obtain ⟨p', first, tree⟩ := sampleEachBuilt
  rw [built] at first
  cases first
  have named : Expr.parse "x" = .ok (.path "x") := by cbv
  obtain ⟨inner, shown, item, inlines⟩ := outputInlines named rfl
  have whole : (sampleOutput "x").inlined p.template.tree =
      .root .start [.loop ⟨1, 1, 0⟩ "x" "xs" [.output .start inner]] := by
    rw [tree, inlines]
    rfl
  have list : Expr.parse "xs" = .ok (.path "xs") := by cbv
  refine ⟨inner, shown, whole, ?_⟩
  rw [whole]
  simp only [Procedure.compile, Procedure.compileNodes, Procedure.compileNode, Procedure.compileExpr, list, item]
  rfl

theorem includingInlinesRows : (sampleOutput "x").Inlinable Path.Plain sampleEach ∧
    ((sampleOutput "x").reached sampleEach).InjOn Digest.sha1 ∧ ∃ p c, (sampleOutput "x").build sampleEach = .ok p ∧
    Procedure.compile .empty ((sampleOutput "x").inlined p.template.tree) = .ok c ∧
    ((sampleOutput "x").render sampleEach sampleXs .unlimited .fresh).1.map RenderResult.outcome = .ok ("ab", none) ∧
    ∀ id w', (Template.render .still (sampleOutput "x").includer
      ⟨id, (sampleOutput "x").inlined p.template.tree, c.procedure, c.dependencies⟩ sampleXs .unlimited w').1.map
        RenderResult.outcome = .ok ("ab", none) := by
  have honest : ∀ other ∈ (sampleOutput "x").reached sampleEach, (sampleOutput "x").Honest other World.fresh.cache := by
    simp [Honest, World.fresh, Cache.empty]
  obtain ⟨p, c, built, -, compiled, same⟩ := @includingInlines _ _ .unlimited _ sampleRowsInlinable sampleRowsDistinct
    honest rfl (by decide) ⟨⟨[], rfl⟩, ⟨[], rfl⟩⟩ sampleXs
  obtain ⟨inner, shown, whole, made⟩ := sampleRowsInlined built
  obtain rfl := Except.ok.inj (compiled.symm.trans made)
  have written : (Template.render .still (sampleOutput "x").includer ⟨"", (sampleOutput "x").inlined p.template.tree,
      ⟨[.iterate ⟨1, 1, 0⟩ "x" (.path "xs") [.emit .start shown (.path "x") []]], [], 0⟩, ["xs"]⟩ sampleXs
        .unlimited .fresh).1.map RenderResult.outcome = .ok ("ab", none) := by
    rfl
  have rendered := (same "" .fresh).symm.trans written
  exact ⟨sampleRowsInlinable, sampleRowsDistinct, p, _, built, compiled, rendered,
    fun id w' => (same id w').trans rendered⟩

/- An include in a branch. -/
def sampleBranch : String := "$\x7b#if f\x7d$\x7binclude p\x7d$\x7b/if\x7d"

/- The branch is not taken. -/
def sampleUntaken : Value := .map [(.str "f", .bool false), (.str "xs", .list [.int 1])]

set_option maxRecDepth 4000 in
theorem sampleBranchBuilt (source : String) : ∃ p, (sampleOutput source).build sampleBranch = .ok p ∧
    p.template = ⟨Digest.sha1 sampleBranch, .root .start [.conditional ⟨1, 1, 0⟩ "f" [.inclusion ⟨1, 9, 8⟩ "p"] []],
      ⟨[.branch ⟨1, 1, 0⟩ (.path "f") [.inclusion ⟨1, 9, 8⟩ "p"] []], [], 0⟩, ["f"]⟩ := by
  have tokens : Token.scan .standard sampleBranch = .ok [⟨.conditionalStart, "f", ⟨1, 1, 0⟩, 8⟩,
      ⟨.inclusion, "p", ⟨1, 9, 8⟩, 20⟩, ⟨.conditionalEnd, "", ⟨1, 21, 20⟩, 26⟩, ⟨.eof, "", ⟨1, 27, 26⟩, 26⟩] := by cbv
  have read : Node.ofTokens .standard [⟨.conditionalStart, "f", ⟨1, 1, 0⟩, 8⟩, ⟨.inclusion, "p", ⟨1, 9, 8⟩, 20⟩,
      ⟨.conditionalEnd, "", ⟨1, 21, 20⟩, 26⟩, ⟨.eof, "", ⟨1, 27, 26⟩, 26⟩] =
      .ok (.root .start [.conditional ⟨1, 1, 0⟩ "f" [.inclusion ⟨1, 9, 8⟩ "p"] []]) := by cbv
  have condition : Expr.parse "f" = .ok (.path "f") := by cbv
  have compiled : Procedure.compile .empty (.root .start [.conditional ⟨1, 1, 0⟩ "f" [.inclusion ⟨1, 9, 8⟩ "p"] []]) =
      .ok ⟨⟨[.branch ⟨1, 1, 0⟩ (.path "f") [.inclusion ⟨1, 9, 8⟩ "p"] []], [], 0⟩, ["f"]⟩ := by
    simp only [Procedure.compile, Procedure.compileNodes, Procedure.compileNode, Procedure.compileExpr, condition]
    rfl
  exact ⟨_, buildOk.mpr ⟨_, _, _, tokens, read, compiled, rfl⟩, rfl⟩

theorem untakenRenders (source : String) :
    ((sampleOutput source).render sampleBranch sampleUntaken .unlimited .fresh).1.map RenderResult.outcome =
      .ok ("", none) := by
  obtain ⟨p, built, template⟩ := sampleBranchBuilt source
  have honest : (sampleOutput source).Honest sampleBranch World.fresh.cache := by
    simp [Honest, World.fresh, Cache.empty]
  rw [renderBuilt honest built, template]
  generalize ((sampleOutput source).process sampleBranch true World.fresh.cache).2 = cache
  rfl

section Untaken

variable {source digits : String} {f : ValueFault}

theorem untakenRequires (parts : Path.segments source = ["xs", digits]) (index : Path.looksLikeIndex digits = true)
    (unread : Path.readInteger digits = .error f) {s : RunState} (vars : s.frame.vars = sampleUntaken)
    (alone : s.frame.options = .unlimited) (scopes : s.frame.scopes = []) :
    Run.require .still ["f", source] s = .error (.value f) (s.finding "f") := by
  have first : Run.resolve .still "f" s = .ok (.bool false) s := by
    have one : Path.segments "f" = ["f"] := by cbv
    have raw : rawValue sampleUntaken RenderOptions.unlimited.defaults "f" = .ok (.bool false) := rfl
    have free : Path.holds RenderOptions.unlimited.handlers "f" = .ok false := rfl
    rw [Run.resolveEnds, one]
    simp only [Frame.bound?, scopes, List.findSome?_nil, Run.lookupEnds, vars, alone, raw, free]
    rfl
  have second : Run.resolve .still source (s.finding "f") = .error (.value f) (s.finding "f") := by
    have list : Path.step sampleUntaken "xs" = .ok (.list [.int 1]) := rfl
    have item : Path.step (.list [.int 1]) digits = .error f := by simp [Path.step, index, unread, Except.map]
    have raised : Path.resolve sampleUntaken source = .error f := by
      rw [Path.resolve, parts]
      simp only [Path.walk, list, item, bind, Except.bind]
    have outermost : (s.finding "f").frame.scopes = [] := scopes
    have given : (s.finding "f").frame.vars = sampleUntaken := vars
    rw [Run.resolveEnds, parts]
    simp only [Frame.bound?, outermost, List.findSome?_nil, Run.lookupEnds, rawValue, given, raised]
    rfl
  rw [Run.requireGoes first rfl]
  simp only [Run.require, bind, EStateM.bind, second]

/- The spliced tree reads the path too. -/
theorem untakenCompiles (parsed : Expr.parse source = .ok (.path source)) (apart : source ≠ "f") :
    ∃ p c, (sampleOutput source).build sampleBranch = .ok p ∧
      Procedure.compile .empty ((sampleOutput source).inlined p.template.tree) = .ok c ∧
      c.dependencies = ["f", source] := by
  obtain ⟨p, built, template⟩ := sampleBranchBuilt source
  obtain ⟨inner, shown, item, inlines⟩ := outputInlines parsed rfl
  have whole : (sampleOutput source).inlined p.template.tree =
      .root .start [.conditional ⟨1, 1, 0⟩ "f" [.output .start inner] []] := by
    rw [template, inlines]
    rfl
  have condition : Expr.parse "f" = .ok (.path "f") := by cbv
  have solid : allBlank "f" = false := by decide
  have first : Procedure.register .empty [] ⟨1, 1, 0⟩ .nothing (.path "f") = .ok ⟨["f"], []⟩ := rfl
  have second : Procedure.register .empty [] .start ⟨["f"], []⟩ (.path source) = .ok ⟨["f", source], []⟩ := by
    simp [Procedure.register, Expr.paths, Expr.functions, Procedure.bindFunctions, Gathered.addPath, appendNew, apart]
  refine ⟨p, ⟨⟨[.branch ⟨1, 1, 0⟩ (.path "f") [.emit .start shown (.path source) []] []], [], 0⟩, ["f", source]⟩, built,
    ?_, rfl⟩
  rw [whole]
  simp only [Procedure.compile, Procedure.compileNodes, Procedure.compileNode, Procedure.compileExpr, condition,
    item, solid, bind, Except.bind, pure, Except.pure, Except.mapError, first, second, Procedure.bindFilters]
  rfl

/- Where the output reads a path with an index that is no number, the spliced tree looks it up, though the branch is
not taken. -/
theorem untakenStops (parsed : Expr.parse source = .ok (.path source))
    (parts : Path.segments source = ["xs", digits]) (index : Path.looksLikeIndex digits = true)
    (unread : Path.readInteger digits = .error f) :
    ∃ p c, (sampleOutput source).build sampleBranch = .ok p ∧
      Procedure.compile .empty ((sampleOutput source).inlined p.template.tree) = .ok c ∧
      ∀ id w', (Template.render .still (sampleOutput source).includer
        ⟨id, (sampleOutput source).inlined p.template.tree, c.procedure, c.dependencies⟩ sampleUntaken .unlimited
          w').1 = .error f := by
  have apart : source ≠ "f" := by
    rintro rfl
    have one : Path.segments "f" = ["f"] := by cbv
    simp [one] at parts
  obtain ⟨p, c, built, compiled, dependencies⟩ := untakenCompiles parsed apart
  refine ⟨p, c, built, compiled, fun id w' => ?_⟩
  rw [Template.renderEnds (Frame.startUnlimited (by decide) _ _)]
  have required := @untakenRequires _ _ _ parts index unread
    ⟨⟨givenVars sampleUntaken, .unlimited, "", [], [], [], [], (w'.tick .still).1, none⟩, (w'.tick .still).2⟩
    rfl rfl rfl
  simp only [Run.execute, dependencies, bind, EStateM.bind, required]
  rfl

end Untaken

/- A path with an index of so many digits. -/
def sampleOnes (count : Nat) : String := String.ofList ('x' :: 's' :: '.' :: List.replicate count '1')

section Ones

variable {count : Nat}

theorem onesPieces : pieces '.' (sampleOnes count).toList = [['x', 's'], List.replicate count '1'] := by
  have ones : pieces '.' (List.replicate count '1') = [List.replicate count '1'] := by
    induction count with
    | zero => rfl
    | succ count ih => simp [List.replicate_succ, pieces, ih]
  simp [sampleOnes, pieces, ones]

theorem onesParse (some : 0 < count) : Expr.parse (sampleOnes count) = .ok (.path (sampleOnes count)) := by
  have free : isReserved (sampleOnes count) = false := by
    have other : ∀ k : Keyword, k.spelling ≠ sampleOnes count := by
      intro k same
      have first := congrArg (fun s => s.toList.head?) same
      cases k <;> simp [sampleOnes, Keyword.spelling] at first
    simp [isReserved, Keyword.ofSpelling?, other]
  have name : isNameStart 'x' = true ∧ isNameRest 'x' = true ∧ isNameRest 's' = true ∧ isNameRest '1' = true := by
    decide +kernel
  have dotted : isDotted (sampleOnes count).toList = true := by
    rw [isDotted, onesPieces]
    simp only [sampleOnes, String.toList_ofList, List.head?_cons, Option.any_some, name, List.all_cons, List.all_nil,
      List.isEmpty_cons, List.all_replicate, List.isEmpty_replicate]
    simp
    omega
  have spelled : (Expr.path (sampleOnes count)).spellable = true := by simp [Expr.spellable, dotted, free]
  have canonical : (Expr.path (sampleOnes count)).canonical = true := by simp [Expr.canonical]
  have read := printedReads canonical spelled
  rwa [Expr.text] at read

theorem onesSegments (some : 0 < count) :
    Path.segments (sampleOnes count) = ["xs", String.ofList (List.replicate count '1')] := by
  rw [Path.segments, onesPieces]
  have written : (List.replicate count '1').isEmpty = false := by simp; omega
  simp [written]

theorem onesIndex (some : 0 < count) : Path.looksLikeIndex (String.ofList (List.replicate count '1')) = true := by
  have digit : isDigit '1' = true := by decide +kernel
  obtain ⟨count, rfl⟩ := Nat.exists_eq_succ_of_ne_zero (Nat.ne_of_gt some)
  simp [Path.looksLikeIndex, List.replicate_succ, digit]

theorem onesUnread (long : ValueFault.maxDigits < count) :
    Path.readInteger (String.ofList (List.replicate count '1')) = .error (.tooManyDigits count) := by
  have digits : ∀ c ∈ List.replicate count '1', Numeral c := by
    intro c member
    rw [List.eq_of_mem_replicate member]
    exact digitNumeral (by decide)
  have written : List.replicate count '1' ≠ [] := by
    rw [ne_eq, List.replicate_eq_nil_iff]
    omega
  have spelled : (String.ofList (List.replicate count '1')).toList =
      if false = true then '-' :: List.replicate count '1' else List.replicate count '1' := by simp
  have read := @digitsRead ValueFault.maxDigits _ _ _ spelled digits written
  rw [List.length_replicate, if_pos long] at read
  rw [Path.readInteger, read]

end Ones

/- An engine with an include that reads an index of one digit more than are read. -/
def sampleLong : Engine := sampleOutput (sampleOnes (ValueFault.maxDigits + 1))

theorem sampleLongInlinable : sampleLong.Inlinable Path.Ascii sampleBranch := by
  obtain ⟨p, first, template⟩ := sampleBranchBuilt (sampleOnes (ValueFault.maxDigits + 1))
  have parsed : Expr.parse (sampleOnes (ValueFault.maxDigits + 1)) = .ok (.path _) := onesParse (Nat.succ_pos _)
  obtain ⟨q, inner, second, tree, shown, item⟩ := @outputBuilds sampleLong rfl _ _ parsed (by simp [Expr.functions])
  have condition : Expr.parse "f" = .ok (.path "f") := by cbv
  have plain : Path.Ascii "f" := by simp [Path.Ascii]
  have ones : Path.Ascii (sampleOnes (ValueFault.maxDigits + 1)) := by
    intro c member
    simp only [sampleOnes, String.toList_ofList, List.mem_cons, List.mem_replicate] at member
    rcases member with rfl | rfl | rfl | ⟨-, rfl⟩ <;> decide
  refine inlinableOnce (fun _ => rfl) first second ?_ (by decide) ?_
  · simp [tree, Node.all, Node.allOf]
  · simp [template, tree, Node.all, Node.allOf, Node.reads, condition, item, Expr.paths, plain, ones]

/- Including is not inlining where an index has too many digits: the spliced tree looks up its path ahead of time,
and the template with the include never gets there. -/
theorem longIndexSpliced : sampleLong.Inlinable Path.Ascii sampleBranch ∧
    (sampleLong.render sampleBranch sampleUntaken .unlimited .fresh).1.map RenderResult.outcome = .ok ("", none) ∧
    ∃ p c, sampleLong.build sampleBranch = .ok p ∧
      Procedure.compile .empty (sampleLong.inlined p.template.tree) = .ok c ∧
      ∀ id w', (Template.render .still sampleLong.includer
        ⟨id, sampleLong.inlined p.template.tree, c.procedure, c.dependencies⟩ sampleUntaken .unlimited w').1 =
          .error (.tooManyDigits (ValueFault.maxDigits + 1)) := by
  have some : 0 < ValueFault.maxDigits + 1 := Nat.succ_pos _
  exact ⟨sampleLongInlinable, untakenRenders _, untakenStops (onesParse some) (onesSegments some) (onesIndex some)
    (onesUnread (Nat.lt_succ_self _))⟩

end Engine
end Stencil
