import Stencil.Proofs.Printing
import Stencil.Proofs.Quoting
import Stencil.Proofs.Tiling

/-! The names of filters and functions. What the registry takes as a name can be used as one: as a filter it is
found behind the bar, and as a function before its parentheses, unless the name is a keyword or there the name
of the directive that includes. -/
namespace Stencil

open Stencil.Expr Text Delimiters

/- Cut, read and compiled in the standard way, a template gives this procedure. -/
def Registry.Compiles (r : Registry) (text : String) (made : Procedure) : Prop :=
  ∃ tokens tree dependencies, Token.scan standard text = .ok tokens ∧ Node.ofTokens .standard tokens = .ok tree ∧
    Procedure.compile r tree = .ok ⟨made, dependencies⟩

open Quoting

namespace Text

variable {sep : Char} {s : List Char}

theorem cutNowhere (absent : sep ∉ s) : cut sep s = (s, none) := by
  have nothing : s.dropWhile (· != sep) = [] := by
    rw [List.dropWhile_eq_nil_iff]
    rintro c member
    simp only [bne_iff_ne]
    rintro rfl
    exact absent member
  rw [cut, nothing]

theorem cutHere (absent : sep ∉ s) (t : List Char) : cut sep (s ++ sep :: t) = (s, some t) := by
  have apart : ∀ c ∈ s, (c != sep) = true := by
    intro c member
    simp only [bne_iff_ne]
    rintro rfl
    exact absent member
  have behind : (s ++ sep :: t).dropWhile (· != sep) = sep :: t := by
    rw [List.dropWhile_append_of_pos apart]
    simp
  have front : (s ++ sep :: t).takeWhile (· != sep) = s := by
    rw [List.takeWhile_append_of_pos apart]
    simp
  rw [cut, behind, front]

end Text

namespace Naming

variable {name : String}

theorem insertOk {before after : Registry} {role : Role} {c : Callable} :
    before.insert role (.str name) (.callable c) = .ok after ↔ Registry.isName name = true ∧
      after = before.withBindings role ((before.bindings role).insert name c) := by
  simp only [Registry.insert]
  split
  · rename_i valid
    simp [valid, eq_comm]
  · rename_i strange
    simp [strange]

/- But for the line break that is overlooked, the registry takes what the expressions take. -/
theorem insertNames {before after : Registry} {role : Role} {c : Callable}
    (accepted : before.insert role (.str name) (.callable c) = .ok after)
    (whole : name.toList.getLast? ≠ some '\n') :
    isCallName name = true ∧ after.get? role name = some c := by
  obtain ⟨valid, rfl⟩ := insertOk.mp accepted
  rw [Registry.isName, chompLine, if_neg whole] at valid
  refine ⟨valid, ?_⟩
  cases role <;> simp [Registry.get?, Registry.withBindings, Registry.bindings, Bindings.lookupInsert]

theorem asciiIsWord {c : Char} (ascii : isAsciiWord c = true) : isWord c = true := by
  have word : isAsciiWord c = true → isWord c = true := asciiForall c (asciiBelow ascii) (by decide +kernel)
  exact word ascii

theorem nameWords (valid : isCallName name = true) : name.toList ≠ [] ∧ ∀ c ∈ name.toList, isWord c = true := by
  rw [isCallName] at valid
  cases spelled : name.toList with
  | nil => simp [spelled, isWordName] at valid
  | cons c r =>
    simp only [spelled, isWordName, Bool.and_eq_true, List.all_eq_true] at valid
    obtain ⟨start, others⟩ := valid
    have first := asciiIsWord (startWord start)
    exact ⟨List.cons_ne_nil c r, List.forall_mem_cons.mpr ⟨first, others⟩⟩

theorem wordSolid {c : Char} (word : isWord c = true) : isBlank c = false := by
  rw [Bool.eq_false_iff]
  intro blank
  rw [(blankInert blank).word] at word
  cases word

theorem wordsPlain {s : List Char} (words : ∀ c ∈ s, isWord c = true) : Plain s :=
  .ofOrdinary fun c member => Plain.ordinaryOf (by simp [Plain.sorts]) (words c member)

theorem wordsStripped {s : List Char} (words : ∀ c ∈ s, isWord c = true) : strip s = s :=
  stripWhole (fun c first => wordSolid (words c (List.mem_of_mem_head? first)))
    (fun c last => wordSolid (words c (List.mem_of_getLast? last)))

theorem wordsColon {s : List Char} (words : ∀ c ∈ s, isWord c = true) : ':' ∉ s := by
  intro member
  have colon : isWord ':' = false := Plain.markNoWord (by decide)
  rw [words ':' member] at colon
  cases colon

/- A filter by its name alone. -/
theorem filterNamed (valid : isCallName name = true) (place : Nat) :
    Output.filter (' ' :: name.toList) place = .ok ⟨name, [], place⟩ := by
  obtain ⟨solid, words⟩ := nameWords valid
  have kept := wordsStripped words
  have text : strip (' ' :: name.toList) = name.toList := by rw [stripLead (by decide), kept]
  have halves := cutNowhere (wordsColon words)
  have shown : name.toList.isEmpty = false := List.isEmpty_eq_false_iff.mpr solid
  simp only [Output.filter, text, halves, shown, kept, String.ofList_toList, valid, Output.arguments,
    Bool.false_eq_true, if_false, if_true]

/- The name of a function with its parentheses. -/
theorem callParses (valid : isCallName name = true) (free : isReserved name = false) :
    Expr.parse (name ++ "()") = .ok (.call name []) := by
  have text : (Expr.call name []).text = name ++ "()" := by
    rw [← String.toList_inj]
    simp [Expr.text, Expr.textOf]
  have canonical : (Expr.call name []).canonical = true := rfl
  have spelled : (Expr.call name []).spellable = true := by simp [spellable, spellableAll, valid, free]
  exact text ▸ printedReads canonical spelled

/- What stands in front of a name and an opening parenthesis, and holds no parenthesis, is in the name. -/
theorem insideName {inner rest : List Char} (stands : inner <+: name.toList ++ '(' :: rest) (free : '(' ∉ inner) :
    inner <+: name.toList := by
  obtain inside | ⟨more, rfl⟩ := List.prefix_or_prefix_of_prefix stands (List.prefix_append _ _)
  · exact inside
  · rw [List.prefix_append_right_inj] at stands
    cases more with
    | nil => simp
    | cons c more =>
      obtain ⟨rfl, -⟩ := List.cons_prefix_cons.mp stands
      simp at free

/- No other directive than an output begins with the name of a function, unless it is the one that includes. -/
theorem callOpens (valid : isCallName name = true) (other : name ≠ "include") (rest : List Char) :
    standard.opener? standard.openers ('$' :: '\x7b' :: (name.toList ++ '(' :: rest)) =
      some ⟨.output, ['$', '\x7b']⟩ := by
  have inner : ∀ o ∈ standard.openers.dropLast, o.folded = '$' :: '\x7b' :: o.folded.drop 2 ∧
      '(' ∉ o.folded.drop 2 ∧ (o.folded.drop 2 = "include".toList ∨
        ∃ c ∈ Plain.marks, c ∈ o.folded.drop 2) := by
    rw [standardOpeners]
    simp [Plain.marks]
  have last : standard.openers = standard.openers.dropLast ++ [⟨.output, ['$', '\x7b']⟩] := by
    rw [standardOpeners]
    rfl
  rw [opener?, List.find?_eq_some_iff_append]
  refine ⟨?_, standard.openers.dropLast, [], last, ?_⟩
  · rw [opensStarts rfl]
    have brace : isWord '\x7b' = false := Plain.markNoWord (by decide)
    exact ⟨by simp, by simp [brace]⟩
  · intro o member
    obtain ⟨front, free, kinds⟩ := inner o member
    rw [Bool.not_eq_true', Bool.eq_false_iff, Ne, opensStarts rfl]
    rintro ⟨stands, ends⟩
    rw [front, List.cons_prefix_cons, List.cons_prefix_cons] at stands
    have inside := insideName stands.2.2 free
    obtain keyword | ⟨c, mark, here⟩ := kinds
    · rw [keyword] at front inside
      obtain ⟨more, same⟩ := inside
      cases more with
      | nil =>
        rw [List.append_nil, String.toList_inj] at same
        exact other same.symm
      | cons c more =>
        have word := (nameWords valid).2 c (by simp [← same])
        have whole : ('$' :: '\x7b' :: (name.toList ++ '(' :: rest)).drop o.folded.length =
            c :: (more ++ '(' :: rest) := by
          rw [← same, front]
          simp
        rw [whole, front] at ends
        exact ends ⟨by simpa using asciiIsWord (c := 'e') (by decide), by simpa using word⟩
    · have word := (nameWords valid).2 c (inside.subset here)
      rw [Plain.markNoWord mark] at word
      cases word

/- A template of one output compiles to what its node compiles to. -/
theorem compilesOutput {r : Registry} {source : String} {made : Procedure} (fills : Filling source)
    (opens : standard.opener? standard.openers ('$' :: '\x7b' :: (source.toList ++ ['\x7d'])) =
      some ⟨.output, ['$', '\x7b']⟩) :
    r.Compiles ("$\x7b" ++ source ++ "\x7d") made ↔
      ∃ dependencies, Procedure.compile r (.root .start [.output .start source]) = .ok ⟨made, dependencies⟩ := by
  obtain ⟨p, stop, scanned⟩ := outputScanned fills opens
  have read := outputRead fills p stop
  constructor
  · rintro ⟨tokens, tree, dependencies, scanned', read', compiled⟩
    obtain rfl := Except.ok.inj (scanned.symm.trans scanned')
    obtain rfl := Except.ok.inj (read.symm.trans read')
    exact ⟨dependencies, compiled⟩
  · rintro ⟨dependencies, compiled⟩
    exact ⟨_, _, dependencies, scanned, read, compiled⟩

theorem filterCompiles {r : Registry} {c : Callable} (valid : isCallName name = true)
    (known : r.get? .filter name = some c) :
    r.Compiles ("$\x7bx | " ++ name ++ "\x7d")
      ⟨[.emit .start "x" (.path "x") [⟨name, c, []⟩]], [], r.revision⟩ := by
  obtain ⟨solid, words⟩ := nameWords valid
  have plain := wordsPlain words
  have parsed := Output.parseFiltered plain (filterNamed valid 3)
  have last : name.toList.getLast? = some (name.toList.getLast solid) := List.getLast?_eq_some_getLast solid
  have fills := fillsFiltered plain ⟨_, last, wordSolid (words _ (List.getLast_mem solid))⟩
  rw [String.ofList_toList] at parsed fills
  have opens : standard.opener? standard.openers ('$' :: '\x7b' :: (("x | " ++ name).toList ++ ['\x7d'])) =
      some ⟨.output, ['$', '\x7b']⟩ := by
    rw [String.toList_append, List.append_assoc]
    exact outputOpens (by decide) _
  have text : "$\x7bx | " ++ name ++ "\x7d" = "$\x7b" ++ ("x | " ++ name) ++ "\x7d" := by
    rw [← String.toList_inj]
    simp
  rw [text, compilesOutput fills opens]
  have registered : Procedure.register r [] .start .nothing (.path "x") = .ok ⟨["x"], []⟩ := rfl
  have bound : Procedure.bindFilters r .start [⟨name, [], 3⟩] = .ok [⟨name, c, []⟩] := by
    simp only [Procedure.bindFilters, known]
    rfl
  exact ⟨["x"], outputCompiled parsed registered bound⟩

theorem callFills (valid : isCallName name = true) : Filling (name ++ "()") := by
  obtain ⟨solid, words⟩ := nameWords valid
  have text : (name ++ "()").toList = name.toList ++ ['(', ')'] := by simp
  have marks : ['(', ')'].all (Plain.Ordinary ·) = true := by decide
  have plain : Plain (name.toList ++ ['(', ')']) :=
    (wordsPlain words).append (.ofOrdinary (by simpa using marks))
  have first : name.toList.head? = some (name.toList.head solid) := List.head?_eq_some_head solid
  refine fillsSolid (text ▸ closesPlain plain) ⟨_, ?_, wordSolid (words _ (List.head_mem solid))⟩ ⟨')', ?_, by decide⟩
  · rw [text, List.head?_append, first]
    rfl
  · rw [text]
    simp

theorem callText : "$\x7b" ++ name ++ "()\x7d" = "$\x7b" ++ (name ++ "()") ++ "\x7d" := by
  rw [← String.toList_inj]
  simp

theorem callBegins (valid : isCallName name = true) (other : name ≠ "include") :
    standard.opener? standard.openers ('$' :: '\x7b' :: ((name ++ "()").toList ++ ['\x7d'])) =
      some ⟨.output, ['$', '\x7b']⟩ := by
  rw [String.toList_append, List.append_assoc]
  exact callOpens valid other _

theorem functionCompiles {r : Registry} {c : Callable} (valid : isCallName name = true) (free : isReserved name = false)
    (other : name ≠ "include") (known : r.get? .function name = some c) :
    r.Compiles ("$\x7b" ++ name ++ "()\x7d")
      ⟨[.emit .start (name ++ "()") (.call name []) []], [(name, c)], r.revision⟩ := by
  have fills := callFills valid
  have parsed := Output.parseAlone (callParses valid free)
  rw [fills.trimmed] at parsed
  have registered : Procedure.register r [] .start .nothing (.call name []) = .ok ⟨[], [(name, c)]⟩ := by
    simp only [Procedure.register, Expr.functions, Procedure.bindFunctions, known]
    rfl
  rw [callText, compilesOutput fills (callBegins valid other)]
  exact ⟨[], outputCompiled parsed registered rfl⟩

theorem reservedNames : isReserved name = true ↔ name ∈ ["true", "false", "null"] := by
  rw [isReserved, Keyword.ofSpelling?, List.find?_isSome]
  simp [Keyword.spelling, eq_comm (b := name)]

/- A keyword is a value, which no parentheses may follow. -/
theorem keywordRefused {r : Registry} {made : Procedure} (reserved : isReserved name = true) :
    ¬ r.Compiles ("$\x7b" ++ name ++ "()\x7d") made := by
  have refused : isCallName name = true ∧ name ≠ "include" ∧ ∃ fault, Output.parse (name ++ "()") = .error fault := by
    rw [reservedNames] at reserved
    simp only [List.mem_cons, List.not_mem_nil, or_false] at reserved
    rcases reserved with rfl | rfl | rfl
    · exact ⟨by decide, by decide, _, by cbv⟩
    · exact ⟨by decide, by decide, _, by cbv⟩
    · exact ⟨by decide, by decide, _, by cbv⟩
  obtain ⟨valid, other, fault, refused⟩ := refused
  rw [callText, compilesOutput (callFills valid) (callBegins valid other)]
  rintro ⟨dependencies, compiled⟩
  simp [Procedure.compile, Procedure.compileNodes, Procedure.compileNode, refused, bind, Except.bind,
    Except.mapError] at compiled

theorem includeScanned : Token.scan standard ("$\x7b" ++ "include" ++ "()\x7d") =
    .ok [⟨.inclusion, "()", .start, 12⟩, ⟨.eof, "", ⟨1, 13, 12⟩, 12⟩] := by cbv

theorem includeRead : Node.ofTokens .standard [⟨.inclusion, "()", .start, 12⟩, ⟨.eof, "", ⟨1, 13, 12⟩, 12⟩] =
    .ok (.root .start [.inclusion .start "()"]) := by cbv

/- Behind the brace, the name of the directive that includes opens that directive. -/
theorem includeIncludes {r : Registry} {made : Procedure}
    (compiles : r.Compiles ("$\x7b" ++ "include" ++ "()\x7d") made) :
    made.instructions = [.inclusion .start "()"] := by
  obtain ⟨tokens, tree, dependencies, scanned, read, compiled⟩ := compiles
  obtain rfl := Except.ok.inj (includeScanned.symm.trans scanned)
  obtain rfl := Except.ok.inj (includeRead.symm.trans read)
  cases compiled
  rfl

/- A callable is found under the name that it was registered with: as a filter always, and as a function
except under the names that mean something else in that place. -/
theorem registeredNames {before after : Registry} {c : Callable} (whole : name.toList.getLast? ≠ some '\n') :
    (before.insert .filter (.str name) (.callable c) = .ok after →
      after.Compiles ("$\x7bx | " ++ name ++ "\x7d")
        ⟨[.emit .start "x" (.path "x") [⟨name, c, []⟩]], [], after.revision⟩) ∧
    (before.insert .function (.str name) (.callable c) = .ok after →
      (after.Compiles ("$\x7b" ++ name ++ "()\x7d")
        ⟨[.emit .start (name ++ "()") (.call name []) []], [(name, c)], after.revision⟩ ↔
          name ∉ ["true", "false", "null", "include"])) := by
  constructor
  · intro accepted
    obtain ⟨valid, known⟩ := insertNames accepted whole
    exact filterCompiles valid known
  · intro accepted
    obtain ⟨valid, known⟩ := insertNames accepted whole
    have names : name ∉ ["true", "false", "null", "include"] ↔ isReserved name = false ∧ name ≠ "include" := by
      rw [Bool.eq_false_iff, Ne, reservedNames]
      simp [and_assoc]
    rw [names]
    constructor
    · intro compiles
      constructor
      · rw [Bool.eq_false_iff]
        intro reserved
        exact keywordRefused reserved compiles
      · rintro rfl
        cases includeIncludes compiles
    · rintro ⟨free, other⟩
      exact functionCompiles valid free other known

theorem sampleNames : Registry.isName "naïve" = true ∧ Registry.isName "true" = true := by decide +kernel

/- A letter beyond ASCII may stand behind the first one. -/
theorem registeredNamesAccent : "naïve".toList.getLast? ≠ some '\n' ∧
    Registry.empty.insert .filter (.str "naïve") (.callable (.builtin .upper)) =
      .ok (Registry.empty.withBindings .filter [("naïve", .builtin .upper)]) ∧
    (Registry.empty.withBindings .filter [("naïve", .builtin .upper)]).Compiles ("$\x7bx | " ++ "naïve" ++ "\x7d")
      ⟨[.emit .start "x" (.path "x") [⟨"naïve", .builtin .upper, []⟩]], [], 1⟩ ∧
    Registry.empty.insert .function (.str "naïve") (.callable (.builtin .now)) =
      .ok (Registry.empty.withBindings .function [("naïve", .builtin .now)]) ∧
    (Registry.empty.withBindings .function [("naïve", .builtin .now)]).Compiles ("$\x7b" ++ "naïve" ++ "()\x7d")
      ⟨[.emit .start ("naïve" ++ "()") (.call "naïve" []) []], [("naïve", .builtin .now)], 1⟩ := by
  have whole : "naïve".toList.getLast? ≠ some '\n' := by decide
  have filter := (@insertOk _ .empty _ .filter (.builtin .upper)).mpr ⟨sampleNames.1, rfl⟩
  have function := (@insertOk _ .empty _ .function (.builtin .now)).mpr ⟨sampleNames.1, rfl⟩
  exact ⟨whole, filter, (registeredNames whole).1 filter, function,
    ((registeredNames whole).2 function).mpr (by decide)⟩

/- The registry takes a keyword for the name of a function, but no call can be written with it. -/
theorem keywordUncallable : ¬ ∀ (before after : Registry) (name : String) (c : Callable),
    before.insert .function (.str name) (.callable c) = .ok after →
      ∃ made, after.Compiles ("$\x7b" ++ name ++ "()\x7d") made ∧ made.functions.lookup name = some c := by
  intro usable
  obtain ⟨made, compiles, -⟩ := usable .empty _ "true" (.builtin .now) (insertOk.mpr ⟨sampleNames.2, rfl⟩)
  exact keywordRefused (by decide) compiles

end Naming
end Stencil
