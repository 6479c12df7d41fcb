import Stencil.Proofs.Interpolation
import Stencil.Proofs.Splitting

/-! Texts as literals. A text between quotes, with a backslash before every quote and backslash in it, stands for
itself wherever a template may hold it: in an output, behind the name of a filter and in a condition. Each of
the scanners that look for the end of a directive, of an argument or of a lexeme passes over all of it. -/
namespace Stencil

namespace Text

/- A backslash goes before each backslash and each quote. -/
def guarded (quote c : Char) : List Char := if c = '\\' ∨ c = quote then ['\\', c] else [c]

def between (quote : Char) (s : String) : List Char := quote :: (s.toList.flatMap (guarded quote) ++ [quote])

def enquoted (quote : Char) (s : String) : String := String.ofList (between quote s)

end Text

open Stencil.Expr Text Delimiters

/- An output with one filter: behind the bar and a blank stands the filter. -/
theorem Output.parseFiltered {segment : List Char} {f : FilterCall} (plain : Plain segment)
    (filtered : Output.filter (' ' :: segment) 3 = .ok f) :
    Output.parse ("x | " ++ String.ofList segment) = .ok ⟨"x", .path "x", [f]⟩ := by
  have front : Expr.parse "x " = .ok (.path "x") := by cbv
  have space : Plain [' '] := .char (by decide) (by decide) (by decide) .nil
  have behind : splitMarked '|' (marked (' ' :: segment)) = [' ' :: segment] := (space.append plain).unsplit 0
  have pieces : splitOutside '|' ("x | " ++ String.ofList segment).toList =
      ("x ".toList, 0) :: [(' ' :: segment, 3)] := by
    have text : ("x | " ++ String.ofList segment).toList = "x ".toList ++ '|' :: ' ' :: segment := by simp
    rw [splitOutside, text, splitJoined (parseKept front) (by decide) (by simp), behind]
    rfl
  rw [parseCut pieces front]
  simp only [Output.calls, filtered]
  rfl

namespace Quoting

variable {quote : Char} (sign : isQuote quote = true) (s : String)

include sign

theorem guardedWritten (c : Char) : Written quote (guarded quote) c := by
  have kept : escaped '\\' = '\\' ∧ escaped quote = quote := by
    simp only [isQuote, Bool.or_eq_true, decide_eq_true_eq] at sign
    rcases sign with rfl | rfl <;> decide
  unfold Written guarded
  split
  · rename_i marked
    refine .inr ⟨c, rfl, ?_⟩
    rcases marked with rfl | rfl
    · exact kept.1
    · exact kept.2
  · rename_i plain
    obtain ⟨backslash, other⟩ := not_or.mp plain
    exact .inl ⟨rfl, other, backslash⟩

/- For the lexer it is one lexeme, -/
theorem betweenSpells : Spells (between quote s) (.text s) :=
  textSpells sign fun c _ => guardedWritten sign c

/- the quote behind the text is the first that closes it, and what stands between is the text, -/
theorem betweenCloses : closingQuote? quote (s.toList.flatMap (guarded quote) ++ [quote]) =
      some (s.toList.flatMap (guarded quote)).length ∧
    unescape (s.toList.flatMap (guarded quote)) = s.toList :=
  textCloses (fun c _ => guardedWritten sign c) (quoteSign sign).2 []

/- and no brace, bar or comma in it ends anything. -/
theorem betweenPlain : Plain (between quote s) := by
  refine .quoted sign (betweenCloses sign s).1 ?_
  have none : (s.toList.flatMap (guarded quote) ++ [quote]).drop ((s.toList.flatMap (guarded quote)).length + 1) =
      [] := by simp
  rw [none]
  exact .nil

theorem betweenSealed (sep : Char) : Sealed sep (between quote s) := by
  have closed := (betweenCloses sign s).1
  have all : (s.toList.flatMap (guarded quote) ++ [quote]).take ((s.toList.flatMap (guarded quote)).length + 1) =
      s.toList.flatMap (guarded quote) ++ [quote] := by simp
  refine ⟨?_, fun member => ?_⟩
  · have leads := @Leads.quoted 0 _ _ _ sign closed
    rwa [all] at leads
  · have marks := @Leads.quotedMarks 0 _ _ _ sign closed []
    rw [all, List.append_nil] at marks
    have shut := (List.of_mem_zip member).2
    rw [between, marks] at shut
    simp [outside] at shut

theorem betweenUnsplit (sep : Char) : splitOutside sep (between quote s) = [(between quote s, 0)] := by
  rw [splitOutside, (betweenSealed sign s sep).kept.whole]
  rfl

theorem quoteSolid : isBlank quote = false := by
  simp only [isQuote, Bool.or_eq_true, decide_eq_true_eq] at sign
  rcases sign with rfl | rfl <;> decide

omit sign in
theorem lastQuote (front : List Char) : (front ++ between quote s).getLast? = some quote := by
  rw [between, ← List.cons_append, ← List.append_assoc, List.getLast?_concat]

theorem betweenStripped : strip (between quote s) = between quote s := by
  have solid := quoteSolid sign
  refine stripWhole (fun c first => ?_) (fun c last => ?_)
  · cases first
    exact solid
  · have same : quote = c := Option.some.inj ((lastQuote s []).symm.trans last)
    exact same ▸ solid

/- An argument of a filter loses its quotes and is read like a lexeme. -/
theorem betweenRead : Output.argument (between quote s) = .ok (.str s) := by
  have body : Output.unquoted? (between quote s) = some (s.toList.flatMap (guarded quote)) := by
    obtain ⟨second, rest, whole⟩ : ∃ second rest, s.toList.flatMap (guarded quote) ++ [quote] = second :: rest :=
      List.exists_cons_of_ne_nil (by simp)
    have last : (second :: rest).getLast? = some quote := by rw [← whole, List.getLast?_concat]
    have front : (second :: rest).dropLast = s.toList.flatMap (guarded quote) := by
      rw [← whole, List.dropLast_concat]
    rw [between, whole, Output.unquoted?, sign, last, front]
    simp
  have read := (betweenCloses sign s).2
  simp only [Output.argument, betweenStripped sign s, body, read, String.ofList_toList]

theorem betweenArgument : Output.arguments (some (between quote s)) = .ok [.str s] := by
  have solid : (between quote s).all isBlank = false := by simp [between, quoteSolid sign]
  simp only [Output.arguments, solid, betweenUnsplit sign s, Bool.false_eq_true, if_false, List.mapM_cons,
    List.mapM_nil, betweenRead sign s]
  rfl

/- As an expression it is the text, -/
theorem enquotedParses : Expr.parse (enquoted quote s) = .ok (.literal (.str s)) := by
  have spells := betweenSpells sign s
  exact aloneParses (by simpa [enquoted] using spells) .text

/- it may be compared, -/
theorem comparisonParses : Expr.parse (enquoted quote s ++ " === v") =
    .ok (.compare .same (.literal (.str s)) (.path "v")) := by
  have name : Lexes ['v'] [.name "v"] := by
    have spells := @nameSpells "v" (by decide) (by decide)
    exact spellsLexes spells (by simp [Apart]) .nil
  have behind : Lexes " === v".toList [.operator (.compare .same), .name "v"] :=
    operatorPadded (o := .compare .same) (by decide) name
  have lexed := spellsLexes (betweenSpells sign s) (by simp [Apart]) behind
  refine parseReads.mpr ⟨[.text s, .operator (.compare .same), .name "v"], by simpa [enquoted] using lexed, ?_⟩
  have left : Reads (.operand .comparison) [.text s, .operator (.compare .same), .name "v"] [.literal (.str s)]
      [.operator (.compare .same), .name "v"] := .comparison (.unary .text)
  have right : Reads (.operand .comparison) [.name "v"] [.path "v"] [] := .comparison (.unary (.path (by simp)))
  have joins : Level.comparison.join? (.operator (.compare .same)) = some (.compare .same) := rfl
  exact levelWhole (.binary left (.step joins right (.stop (by simp))))

theorem argumentPlain : Plain ("default:".toList ++ between quote s) := by
  have ordinary : "default:".toList.all (Plain.Ordinary ·) = true := by decide
  exact (Plain.ofOrdinary (by simpa using ordinary)).append (betweenPlain sign s)

theorem filterParses (place : Nat) :
    Output.filter (' ' :: ("default:".toList ++ between quote s)) place = .ok ⟨"default", [.str s], place⟩ := by
  have text : strip (' ' :: ("default:".toList ++ between quote s)) = "default:".toList ++ between quote s := by
    rw [stripLead (by decide)]
    refine stripWhole (fun c first => ?_) (fun c last => ?_)
    · cases first
      decide
    · cases (lastQuote s _).symm.trans last
      exact quoteSolid sign
  have halves : cut ':' ("default:".toList ++ between quote s) = ("default".toList, some (between quote s)) := rfl
  have name : String.ofList (strip "default".toList) = "default" := by decide
  have valid : isCallName "default" = true := by decide
  simp only [Output.filter, text, halves, name, valid, betweenArgument sign s]
  rfl

omit sign in
theorem defaultText : "x | default:" ++ enquoted quote s =
    "x | " ++ String.ofList ("default:".toList ++ between quote s) := by
  rw [← String.toList_inj]
  simp [enquoted]

/- and it may be given to a filter. -/
theorem defaultParses : Output.parse ("x | default:" ++ enquoted quote s) =
    .ok ⟨"x", .path "x", [⟨"default", [.str s], 3⟩]⟩ := by
  rw [defaultText]
  exact Output.parseFiltered (argumentPlain sign s) (filterParses sign s 3)

end Quoting

/- Lenient, without a limit and without escaping; nothing but the variables says what a path stands for. -/
structure RenderOptions.Simple (options : RenderOptions) : Prop where
  lenient : options.strict.isOn = false
  unlimited : options.timeout.isPositive = false
  unescaped : options.escape.isOn = false
  alone : Slot.Alone options

/- The text is rendered, and this is its output. -/
def Engine.Shows (e : Engine) (text : String) (vars : Value) (options : RenderOptions) (w : World)
    (shown : String) : Prop :=
  ∃ r w', e.render text vars options w = (.ok r, w') ∧ r.output = shown ∧ r.failure = none

namespace Quoting

variable {e : Engine} {vars : Value} {options : RenderOptions} {w : World}

/- A template without includes shows what its tree tells. -/
theorem showsTold {text : String} {tokens : List Token} {tree : Node} {c : Procedure.Compiled} {told : Trace}
    (scanned : Token.scan e.settings.delimiters text = .ok tokens)
    (read : Node.ofTokens e.settings.limits tokens = .ok tree)
    (compiled : Procedure.compile e.registry tree = .ok c) (free : tree.IncludeFree)
    (leads : ∀ path ∈ c.dependencies, ∃ u, Path.resolve vars path = .ok u)
    (tells : (Slot.setting e vars options).interpret tree ⟨"", []⟩ = .ok () told)
    (simple : options.Simple) (honest : e.Honest text w.cache) : e.Shows text vars options w told.text := by
  have built := Engine.buildOk.mpr ⟨tokens, tree, c, scanned, read, compiled, rfl⟩
  rw [Engine.Shows, Engine.renderBuilt honest built, Template.render, Template.begin]
  generalize World.tick e.host _ = ticked
  obtain ⟨now, w⟩ := ticked
  have begun := Frame.startUnlimited simple.unlimited vars now
  obtain ⟨s, executed, output, options', timeless⟩ := Slot.executesTree e.includer (Digest.sha1 text) compiled free
    tells leads simple.lenient simple.unlimited simple.alone begun w
  have ran := Slot.runs executed timeless (by rw [options', simple.unescaped])
  simp only [begun, Except.map, ran]
  exact ⟨_, _, rfl, output, rfl⟩

/- The source of a directive that it fills. -/
structure Filling (source : String) : Prop where
  closes : Closes source.toList
  kept : strip source.toList = source.toList
  solid : allBlank source = false

theorem Filling.trimmed {source : String} (fills : Filling source) : trim source = source := by
  rw [trim, fills.kept, String.ofList_toList]

/- A template of one output: where no other directive begins, the scanner gives the source of the output, -/
theorem outputScanned {source : String} (fills : Filling source)
    (opens : standard.opener? standard.openers ('$' :: '\x7b' :: (source.toList ++ ['\x7d'])) =
      some ⟨.output, ['$', '\x7b']⟩) :
    ∃ (p : Position) (stop : Nat), Token.scan standard ("$\x7b" ++ source ++ "\x7d") =
      .ok [⟨.output, source, .start, stop⟩, ⟨.eof, "", p, p.offset⟩] := by
  have text : ("$\x7b" ++ source ++ "\x7d").toList = '$' :: '\x7b' :: (source.toList ++ ['\x7d']) := by simp
  have ends := directiveCloses (o := ⟨.output, ['$', '\x7b']⟩) (by simp) fills.closes []
  have piece : Token.piece standard standard.openers '$' ('\x7b' :: (source.toList ++ ['\x7d'])) =
      .ok ⟨.output, source, source.toList.length + 3⟩ := by
    have length : 2 + source.toList.length + 1 = source.toList.length + 3 := by omega
    rw [Token.piece, opens]
    simpa [fills.kept, length] using ends
  have nothing : ('\x7b' :: (source.toList ++ ['\x7d'])).drop (source.toList.length + 3 - 1) = [] := by simp
  rw [Token.scan, text]
  change ∃ (p : Position) (stop : Nat), Token.scanFrom standard standard.openers .start _ = _
  rw [Token.scanFrom, piece]
  simp only [nothing, Token.scanFrom, reduceCtorEq, if_false]
  exact ⟨_, _, rfl⟩

/- and the parser makes one node of it. -/
theorem outputRead {source : String} (fills : Filling source) (p : Position) (stop : Nat) :
    Node.ofTokens .standard [⟨.output, source, .start, stop⟩, ⟨.eof, "", p, p.offset⟩] =
      .ok (.root .start [.output .start source]) := by
  simp [Node.ofTokens, Node.read, Node.leaf, fills.solid, Node.trimmed, fills.trimmed]

/- The procedure of such a template. -/
theorem outputCompiled {r : Registry} {source : String} {o : Output} {g : Gathered} {filters : List BoundFilter}
    (parsed : Output.parse source = .ok o)
    (registered : Procedure.register r [] .start .nothing o.expression = .ok g)
    (binds : Procedure.bindFilters r .start o.filters = .ok filters) :
    Procedure.compile r (.root .start [.output .start source]) =
      .ok ⟨⟨[.emit .start o.source o.expression filters], g.functions, r.revision⟩, g.paths⟩ := by
  simp only [Procedure.compile, Procedure.compileNodes, Procedure.compileNode, parsed, bind, Except.bind,
    Except.mapError, registered, binds, pure, Except.pure]

theorem outputShows {source shown : String} {o : Output} {filters : List BoundFilter}
    (settings : e.settings = .standard) (fills : Filling source)
    (first : ∀ c ∈ source.toList.head?, c ∉ ['i', '/', 'e', '#', '!'])
    (parsed : Output.parse source = .ok o) (known : o.expression.functions = [])
    (binds : Procedure.bindFilters e.registry .start o.filters = .ok filters)
    (leads : ∀ path ∈ o.expression.paths, ∃ u, Path.resolve vars path = .ok u)
    (tells : ∃ calls, (Slot.setting e vars options).tell (.output .start source) [] ⟨"", []⟩ = .ok () ⟨shown, calls⟩)
    (simple : options.Simple) (honest : e.Honest ("$\x7b" ++ source ++ "\x7d") w.cache) :
    e.Shows ("$\x7b" ++ source ++ "\x7d") vars options w shown := by
  obtain ⟨c, s, shape⟩ : ∃ c s, source.toList = c :: s := by
    refine List.exists_cons_of_ne_nil fun none => ?_
    have solid := fills.solid
    simp [allBlank, none] at solid
  have opens := outputOpens (first c (by simp [shape])) (s ++ ['\x7d'])
  rw [← List.cons_append, ← shape] at opens
  obtain ⟨p, stop, scanned⟩ := outputScanned fills opens
  have read := outputRead fills p stop
  obtain ⟨g, registered, added⟩ := @Procedure.registersKnown e.registry o.expression [] .start .nothing (by simp [known])
  have compiled := outputCompiled parsed registered binds
  have free : (Node.root .start [.output .start source]).IncludeFree := by simp [Node.IncludeFree, Node.all, Node.allOf]
  obtain ⟨calls, tells⟩ := tells
  refine @showsTold _ _ _ _ _ _ _ _ ⟨shown, calls⟩ (by rwa [settings]) (by rwa [settings]) compiled free
    (fun path member => ?_) ?_ simple honest
  · exact leads path ((added path member).resolve_left (by simp [Gathered.nothing]))
  · simp only [Setting.interpret, Setting.tellAll, bind, EStateM.bind, tells]
    rfl

theorem closesPadded {s : List Char} (closes : Closes s) : Closes (' ' :: s) := by
  have space : Plain [' '] := .char (by decide) (by decide) (by decide) .nil
  intro rest
  have passed := space.passed (s ++ '\x7d' :: rest)
  rw [closes rest] at passed
  exact passed

/- The openers of blocks whose directive holds something. -/
def blocks : List Token.Opener := [⟨.conditionalStart, "$\x7b#if".toList⟩, ⟨.loopStart, "$\x7b#each".toList⟩]

theorem blockOpens {o : Token.Opener} (block : o ∈ blocks) (rest : List Char) :
    standard.opener? standard.openers (o.folded ++ ' ' :: rest) = some o := by
  have space : isWord ' ' = false := by decide +kernel
  simp only [blocks, List.mem_cons, List.not_mem_nil, or_false] at block
  rw [standardOpeners]
  rcases block with rfl | rfl <;> simp [opener?, opensAt, fold, standard, space]

theorem blockPiece {o : Token.Opener} (block : o ∈ blocks) {s : List Char} (closes : Closes s) (rest : List Char) :
    Token.piece standard standard.openers '$' (o.folded.tail ++ (' ' :: s ++ '\x7d' :: rest)) =
      .ok ⟨o.kind, String.ofList (strip s), o.folded.length + s.length + 2⟩ := by
  have sorts : ∀ o ∈ blocks, o.kind ∈ [.output, .conditionalStart, .loopStart] ∧ '$' :: o.folded.tail = o.folded := by
    decide
  obtain ⟨kind, front⟩ := sorts o block
  have ends := directiveCloses kind (closesPadded closes) rest
  have value : strip (' ' :: s) = strip s := stripLead (by decide) s
  have opens := blockOpens block (s ++ '\x7d' :: rest)
  rw [Token.piece, ← List.cons_append, front, List.cons_append, opens, ← value]
  exact ends

theorem conditionPiece {s : List Char} (closes : Closes s) (rest : List Char) :
    Token.piece standard standard.openers '$' ("\x7b#if".toList ++ (' ' :: s ++ '\x7d' :: rest)) =
      .ok ⟨.conditionalStart, String.ofList (strip s), s.length + 7⟩ := by
  have piece := blockPiece (o := ⟨.conditionalStart, "$\x7b#if".toList⟩) (by simp [blocks]) closes rest
  have length : 5 + s.length + 2 = s.length + 7 := by omega
  simpa [length] using piece

/- A template of one condition and a text in it. -/
theorem conditionShows {source : String} {x : Expr} (settings : e.settings = .standard) (fills : Filling source)
    (parsed : Expr.parse source = .ok x) (known : x.functions = [])
    (leads : ∀ path ∈ x.paths, ∃ u, Path.resolve vars path = .ok u)
    (holds : ∃ calls, (Slot.setting e vars options).evaluate [] .start x ⟨"", []⟩ = .ok (.bool true) ⟨"", calls⟩)
    (simple : options.Simple) (honest : e.Honest ("$\x7b#if " ++ source ++ "\x7dY$\x7b/if\x7d") w.cache) :
    e.Shows ("$\x7b#if " ++ source ++ "\x7dY$\x7b/if\x7d") vars options w "Y" := by
  obtain ⟨p, q, r, first, second, third, scanned⟩ : ∃ (p q r : Position) (first second third : Nat),
      Token.scan e.settings.delimiters ("$\x7b#if " ++ source ++ "\x7dY$\x7b/if\x7d") =
        .ok [⟨.conditionalStart, source, .start, first⟩, ⟨.text, "Y", p, second⟩, ⟨.conditionalEnd, "", q, third⟩,
          ⟨.eof, "", r, r.offset⟩] := by
    have text : ("$\x7b#if " ++ source ++ "\x7dY$\x7b/if\x7d").toList =
        '$' :: ("\x7b#if".toList ++ (' ' :: source.toList ++ '\x7d' :: "Y$\x7b/if\x7d".toList)) := by
      simp
    have value : String.ofList (strip source.toList) = source := fills.trimmed
    have rest : ("\x7b#if".toList ++ (' ' :: source.toList ++ '\x7d' :: "Y$\x7b/if\x7d".toList)).drop
        (source.toList.length + 7 - 1) = "Y$\x7b/if\x7d".toList := by
      simp
    have inner : Token.piece standard standard.openers 'Y' "$\x7b/if\x7d".toList = .ok ⟨.text, "Y", 1⟩ := by cbv
    have last : Token.piece standard standard.openers '$' "\x7b/if\x7d".toList = .ok ⟨.conditionalEnd, "", 6⟩ := by
      rw [Token.piece, standardOpeners]
      rfl
    have front : "Y$\x7b/if\x7d".toList = 'Y' :: "$\x7b/if\x7d".toList := rfl
    have behind : "$\x7b/if\x7d".toList = '$' :: "\x7b/if\x7d".toList := rfl
    rw [settings, Token.scan, text]
    change ∃ (p q r : Position) (first second third : Nat), Token.scanFrom standard standard.openers .start _ = _
    rw [Token.scanFrom, conditionPiece fills.closes]
    simp only [rest, value]
    rw [front, Token.scanFrom, inner]
    simp only [Nat.sub_self, List.drop_zero]
    rw [behind, Token.scanFrom, last]
    have nothing : "\x7b/if\x7d".toList.drop (6 - 1) = [] := rfl
    simp only [nothing, Token.scanFrom, reduceCtorEq, if_false]
    exact ⟨_, _, _, _, _, _, rfl⟩
  have read : Node.ofTokens e.settings.limits [⟨.conditionalStart, source, .start, first⟩, ⟨.text, "Y", p, second⟩,
      ⟨.conditionalEnd, "", q, third⟩, ⟨.eof, "", r, r.offset⟩] =
      .ok (.root .start [.conditional .start source [.text p "Y"] []]) := by
    simp [Node.ofTokens, Node.read, Node.leaf, Node.opened, Node.trimmed, fills.trimmed, settings, Settings.standard,
      Limits.standard]
  obtain ⟨g, registered, added⟩ := @Procedure.registersKnown e.registry x [] .start .nothing (by simp [known])
  have compiled : Procedure.compile e.registry (.root .start [.conditional .start source [.text p "Y"] []]) =
      .ok ⟨⟨[.branch .start x [.text "Y"] []], g.functions, e.registry.revision⟩, g.paths⟩ := by
    simp only [Procedure.compile, Procedure.compileNodes, Procedure.compileNode, Procedure.compileExpr, fills.solid,
      parsed, bind, Except.bind, Except.mapError, registered, pure, Except.pure, Bool.false_eq_true, if_false]
  have free : (Node.root .start [.conditional .start source [.text p "Y"] []]).IncludeFree := by
    simp [Node.IncludeFree, Node.all, Node.allOf]
  obtain ⟨calls, holds⟩ := holds
  refine @showsTold _ _ _ _ _ _ _ _ ⟨"Y", calls⟩ scanned read compiled free (fun path member => ?_) ?_ simple honest
  · exact leads path ((added path member).resolve_left (by simp [Gathered.nothing]))
  · simp only [Setting.interpret, Setting.tellAll, Setting.tell, parsed, bind, EStateM.bind, holds, Value.isTruthy]
    rfl

/- What is put around a quoted text, without blanks at its ends, fills a directive. -/
theorem fillsSolid {source : String} (closes : Closes source.toList)
    (first : ∃ c, source.toList.head? = some c ∧ isBlank c = false)
    (last : ∃ c, source.toList.getLast? = some c ∧ isBlank c = false) : Filling source where
  closes := closes
  kept := by
    obtain ⟨c, front, solid⟩ := first
    obtain ⟨d, back, solid'⟩ := last
    refine stripWhole (fun c' first => ?_) (fun d' last => ?_)
    · cases front.symm.trans first
      exact solid
    · cases back.symm.trans last
      exact solid'
  solid := by
    obtain ⟨c, front, solid⟩ := first
    obtain ⟨s, shape⟩ := List.head?_eq_some_iff.mp front
    simp [allBlank, shape, solid]

variable {quote : Char}

theorem textFills (sign : isQuote quote = true) (s : String) : Filling (enquoted quote s) := by
  have text : (enquoted quote s).toList = between quote s := by simp [enquoted]
  refine fillsSolid ?_ ⟨quote, ?_, quoteSolid sign⟩ ⟨quote, ?_, quoteSolid sign⟩
  · exact text ▸ closesPlain (betweenPlain sign s)
  · rw [text]
    rfl
  · rw [text]
    exact lastQuote s []

theorem comparisonFills (sign : isQuote quote = true) (s : String) : Filling (enquoted quote s ++ " === v") := by
  have text : (enquoted quote s ++ " === v").toList = between quote s ++ " === v".toList := by simp [enquoted]
  have ordinary : " === v".toList.all (Plain.Ordinary ·) = true := by decide
  refine fillsSolid ?_ ⟨quote, ?_, quoteSolid sign⟩ ⟨'v', ?_, by decide⟩
  · rw [text]
    exact closesPlain ((betweenPlain sign s).append (.ofOrdinary (by simpa using ordinary)))
  · rw [text]
    rfl
  · rw [text]
    simp

/- The bar in front of a filter ends nothing either. -/
theorem fillsFiltered {segment : List Char} (plain : Plain segment)
    (last : ∃ c, segment.getLast? = some c ∧ isBlank c = false) : Filling ("x | " ++ String.ofList segment) := by
  have text : ("x | " ++ String.ofList segment).toList = 'x' :: ' ' :: '|' :: ' ' :: segment := by simp
  obtain ⟨c, back, solid⟩ := last
  refine fillsSolid ?_ ⟨'x', ?_, by decide⟩ ⟨c, ?_, solid⟩
  · have ordinary : ['x', ' '].all (Plain.Ordinary ·) = true := by decide
    have front : Plain ['x', ' '] := .ofOrdinary (by simpa using ordinary)
    have noQuote : isQuote '|' = false := by decide
    intro rest
    have behind := closesPadded (closesPlain plain) rest
    have passed := front.passed ('|' :: (' ' :: segment ++ '\x7d' :: rest))
    rw [Plain.closerStep (by decide), noQuote] at passed
    simp only [Bool.false_eq_true, if_false, behind, Option.map_some] at passed
    rw [text]
    exact passed
  · rw [text]
    rfl
  · have whole : 'x' :: ' ' :: '|' :: ' ' :: segment = ['x', ' ', '|', ' '] ++ segment := rfl
    rw [text, whole, List.getLast?_append, back]
    rfl

theorem defaultFills (sign : isQuote quote = true) (s : String) : Filling ("x | default:" ++ enquoted quote s) := by
  rw [defaultText]
  exact fillsFiltered (argumentPlain sign s) ⟨quote, lastQuote s _, quoteSolid sign⟩

theorem readsAlone (alone : Slot.Alone options) {name : String} {v : Value}
    (known : Path.resolve vars name = .ok v) (parts : Path.segments name = [name]) (t : Trace) :
    (Slot.setting e vars options).read [] name t = .ok v t := by
  simp only [Setting.read, parts, List.findSome?_nil, Slot.outerAlone alone known]
  rfl

theorem quoteBegins (sign : isQuote quote = true) (rest : List Char) :
    ∀ c ∈ (quote :: rest).head?, c ∉ ['i', '/', 'e', '#', '!'] := by
  rintro c ⟨⟩
  simp only [isQuote, Bool.or_eq_true, decide_eq_true_eq] at sign
  rcases sign with rfl | rfl <;> decide

theorem textShows (settings : e.settings = .standard) (simple : options.Simple) (sign : isQuote quote = true)
    (s : String) (honest : e.Honest ("$\x7b" ++ enquoted quote s ++ "\x7d") w.cache) :
    e.Shows ("$\x7b" ++ enquoted quote s ++ "\x7d") vars options w s := by
  have parsed := Output.parseAlone (enquotedParses sign s)
  refine outputShows settings (textFills sign s) ?_ parsed rfl rfl (by simp [Expr.paths]) ⟨[], ?_⟩ simple honest
  · rw [enquoted, String.toList_ofList]
    exact quoteBegins sign _
  · simp only [Setting.tell, parsed]
    rfl

theorem defaultShows (settings : e.settings = .standard)
    (known : e.registry.get? .filter "default" = some (.builtin .default)) (simple : options.Simple)
    (sign : isQuote quote = true) (s : String) (unbound : Path.resolve vars "x" = .ok .missing)
    (honest : e.Honest ("$\x7bx | default:" ++ enquoted quote s ++ "\x7d") w.cache) :
    e.Shows ("$\x7bx | default:" ++ enquoted quote s ++ "\x7d") vars options w s := by
  have whole : "$\x7bx | default:" ++ enquoted quote s ++ "\x7d" =
      "$\x7b" ++ ("x | default:" ++ enquoted quote s) ++ "\x7d" := String.toList_inj.mp (by simp)
  have parsed := defaultParses sign s
  have start : ("x | default:" ++ enquoted quote s).toList.head? = some 'x' := by simp
  have binds : Procedure.bindFilters e.registry .start [⟨"default", [.str s], 3⟩] =
      .ok [⟨"default", .builtin .default, [.str s]⟩] := by
    simp only [Procedure.bindFilters, known]
    rfl
  have read := readsAlone (e := e) simple.alone unbound (by cbv) ⟨"", []⟩
  have evaluated : (Slot.setting e vars options).evaluate [] .start (.path "x") ⟨"", []⟩ = .ok .missing ⟨"", []⟩ := by
    simp only [Setting.evaluate, Expr.eval, EStateM.adaptExcept, read]
  rw [whole] at honest ⊢
  refine outputShows settings (defaultFills sign s) ?_ parsed rfl binds ?_ ?_ simple honest
  · rw [start]
    rintro c ⟨⟩
    decide
  · simp [Expr.paths, unbound]
  · refine ⟨[(.builtin .default, [.null, .str s])], ?_⟩
    simp only [Setting.tell, parsed, bind, EStateM.bind, evaluated, Setting.through, known]
    rfl

theorem comparisonShows (settings : e.settings = .standard) (simple : options.Simple) (sign : isQuote quote = true)
    (s : String) (bound : Path.resolve vars "v" = .ok (.str s))
    (honest : e.Honest ("$\x7b#if " ++ enquoted quote s ++ " === v\x7dY$\x7b/if\x7d") w.cache) :
    e.Shows ("$\x7b#if " ++ enquoted quote s ++ " === v\x7dY$\x7b/if\x7d") vars options w "Y" := by
  have whole : "$\x7b#if " ++ enquoted quote s ++ " === v\x7dY$\x7b/if\x7d" =
      "$\x7b#if " ++ (enquoted quote s ++ " === v") ++ "\x7dY$\x7b/if\x7d" := String.toList_inj.mp (by simp)
  have same : Value.compare .same (.str s) (.str s) = .ok true := by
    simp [Value.compare, Value.strictlyEqual, Value.equalOperands, Value.isNan, Value.equal, Value.equalScalars]
  have read := readsAlone (e := e) simple.alone bound (by cbv) ⟨"", []⟩
  rw [whole] at honest ⊢
  refine conditionShows settings (comparisonFills sign s) (comparisonParses sign s) rfl ?_ ⟨[], ?_⟩ simple honest
  · simp [Expr.paths, bound]
  · simp only [Setting.evaluate, Expr.eval, EStateM.adaptExcept, bind, EStateM.bind, pure, EStateM.pure, read, same]
    rfl

/- Every text can be written as a literal, between quotes of either kind. -/
theorem literalShows {e : Engine} (settings : e.settings = .standard)
    (known : e.registry.get? .filter "default" = some (.builtin .default)) {options : RenderOptions}
    (simple : options.Simple) {quote : Char} (sign : isQuote quote = true) (s : String) (vars : Value) (w : World) :
    (e.Honest ("$\x7b" ++ enquoted quote s ++ "\x7d") w.cache →
      e.Shows ("$\x7b" ++ enquoted quote s ++ "\x7d") vars options w s) ∧
    (Path.resolve vars "x" = .ok .missing → e.Honest ("$\x7bx | default:" ++ enquoted quote s ++ "\x7d") w.cache →
      e.Shows ("$\x7bx | default:" ++ enquoted quote s ++ "\x7d") vars options w s) ∧
    (Path.resolve vars "v" = .ok (.str s) →
      e.Honest ("$\x7b#if " ++ enquoted quote s ++ " === v\x7dY$\x7b/if\x7d") w.cache →
      e.Shows ("$\x7b#if " ++ enquoted quote s ++ " === v\x7dY$\x7b/if\x7d") vars options w "Y") :=
  ⟨textShows settings simple sign s, defaultShows settings known simple sign s, comparisonShows settings simple sign s⟩

/- A text with all that could end a literal too early. -/
def sampleText : String := "a'\"\\\x7d | b,c:(d\n"

def sampleBuiltins : Engine := ⟨.standard, .builtins, none, .still⟩

theorem literalShowsMixed : enquoted '\'' sampleText = "'a\\'\"\\\\\x7d | b,c:(d\n'" ∧
    sampleBuiltins.Shows ("$\x7b" ++ enquoted '\'' sampleText ++ "\x7d") (.map [(.str "v", .str sampleText)])
      .unlimited .fresh sampleText ∧
    sampleBuiltins.Shows ("$\x7bx | default:" ++ enquoted '"' sampleText ++ "\x7d")
      (.map [(.str "v", .str sampleText)]) .unlimited .fresh sampleText ∧
    sampleBuiltins.Shows ("$\x7b#if " ++ enquoted '"' sampleText ++ " === v\x7dY$\x7b/if\x7d")
      (.map [(.str "v", .str sampleText)]) .unlimited .fresh "Y" := by
  have simple : RenderOptions.unlimited.Simple := ⟨rfl, by decide, rfl, rfl, rfl⟩
  have known : sampleBuiltins.registry.get? .filter "default" = some (.builtin .default) := by decide
  have fresh (text : String) : sampleBuiltins.Honest text World.fresh.cache := fun entry member => by cases member
  have absent : Path.resolve (.map [(.str "v", .str sampleText)]) "x" = .ok .missing := by cbv
  have given : Path.resolve (.map [(.str "v", .str sampleText)]) "v" = .ok (.str sampleText) := by cbv
  obtain ⟨shown, -, -⟩ := @literalShows sampleBuiltins rfl known _ simple '\'' (by decide) sampleText
    (.map [(.str "v", .str sampleText)]) .fresh
  obtain ⟨-, behind, compared⟩ := @literalShows sampleBuiltins rfl known _ simple '"' (by decide) sampleText
    (.map [(.str "v", .str sampleText)]) .fresh
  exact ⟨by decide +kernel, shown (fresh _), behind absent (fresh _), compared given (fresh _)⟩

end Quoting

end Stencil
