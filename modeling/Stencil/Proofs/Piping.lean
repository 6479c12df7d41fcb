import Stencil.Proofs.Composing
import Stencil.Proofs.Naming

/-! Chains of filters. An expression and the filters behind it are read back from their text, with the arguments
that the filters were given, unless an integer among them has more digits than are read. -/
namespace Stencil

open Stencil.Expr Text

namespace Output

/- An argument of a filter as it may be written: a text in single quotes, a decimal integer, or a keyword. -/
inductive Argument where
  | text (s : String)
  | whole (n : Int)
  | word (k : Keyword)

namespace Argument

def written : Argument → String
  | text s => enquoted '\'' s
  | whole n => toString n
  | word k => k.spelling

def value : Argument → Value
  | text s => .str s
  | whole n => .int n
  | word k => k.value

/- An integer may have as many digits as are read. -/
def Readable : Argument → Prop
  | text _ => True
  | whole n => n.natAbs < Value.leastUnwritable
  | word _ => True

instance : DecidablePred Readable
  | text _ => inferInstanceAs (Decidable True)
  | whole n => inferInstanceAs (Decidable (n.natAbs < Value.leastUnwritable))
  | word _ => inferInstanceAs (Decidable True)

/- What an integer of too many digits is refused with. -/
def refusal (n : Int) : ValueFault := .tooManyDigits (Nat.toDigits 10 n.natAbs).length

/- What is read for an argument. -/
def read : Argument → Except ValueFault Value
  | text s => .ok (.str s)
  | whole n => if n.natAbs < Value.leastUnwritable then .ok (.int n) else .error (refusal n)
  | word k => .ok k.value

theorem readEither (a : Argument) :
    (a.Readable ∧ a.read = .ok a.value) ∨ ∃ n, a = whole n ∧ ¬ a.Readable ∧ a.read = .error (refusal n) := by
  cases a with
  | text | word => exact .inl ⟨trivial, rfl⟩
  | whole n =>
    simp only [Readable, read]
    by_cases short : n.natAbs < Value.leastUnwritable
    · exact .inl ⟨short, if_pos short⟩
    · exact .inr ⟨n, rfl, short, if_neg short⟩

theorem integerChars (n : Int) : ∀ c ∈ (toString n).toList, c = '-' ∨ Numeral c := by
  intro c member
  rw [integerText] at member
  split at member
  · exact (List.mem_cons.mp member).imp_right (naturalDigits n.natAbs c)
  · exact .inr (naturalDigits n.natAbs c member)

theorem integerWritten (n : Int) : (toString n).toList ≠ [] := by
  rw [integerText]
  split
  · exact List.cons_ne_nil _ _
  · exact Nat.toDigits_ne_nil

theorem quotedWritten (s : String) : (written (text s)).toList = between '\'' s := by simp [written, enquoted]

variable (a : Argument)

/- Nothing that a filter is split at stands at the ends of an argument, nor a blank. -/
theorem edges : ∃ c d, a.written.toList.head? = some c ∧ a.written.toList.getLast? = some d ∧ c ≠ ',' ∧
    isBlank c = false ∧ isBlank d = false := by
  have sign : isBlank '-' = false ∧ '-' ≠ ',' := by decide
  have integer (n : Int) : ∀ c ∈ (toString n).toList, isBlank c = false ∧ c ≠ ',' := by
    intro c member
    rcases integerChars n c member with rfl | digit
    · exact sign
    · exact ⟨digit.solid, fun same => digit.mark (by simp [same])⟩
  cases a with
  | text s =>
    rw [quotedWritten]
    exact ⟨'\'', '\'', rfl, Quoting.lastQuote s [], by decide, by decide, by decide⟩
  | whole n =>
    obtain ⟨c, first⟩ := Option.isSome_iff_exists.mp (List.isSome_head?.mpr (integerWritten n))
    obtain ⟨d, last⟩ := Option.isSome_iff_exists.mp (List.getLast?_isSome.mpr (integerWritten n))
    have front := integer n c (List.mem_of_mem_head? first)
    exact ⟨c, d, first, last, front.2, front.1, (integer n d (List.mem_of_getLast? last)).1⟩
  | word k => cases k <;> exact ⟨_, _, rfl, rfl, by decide, by decide, by decide⟩

theorem stripped : strip a.written.toList = a.written.toList := by
  obtain ⟨c, d, first, last, -, front, back⟩ := a.edges
  refine stripWhole (fun c' first' => ?_) (fun d' last' => ?_)
  · exact Option.some.inj (first.symm.trans first') ▸ front
  · exact Option.some.inj (last.symm.trans last') ▸ back

theorem closed {sep : Char} (known : sep ∈ [',', '|']) : Sealed sep a.written.toList := by
  have either : sep = ',' ∨ sep = '|' := by simpa using known
  cases a with
  | text s =>
    rw [quotedWritten]
    exact Quoting.betweenSealed (by decide) s _
  | whole n =>
    refine .ofFlat fun c member => ?_
    rcases integerChars n c member with rfl | digit
    · rcases either with rfl | rfl <;> decide
    · obtain ⟨opening, closing, comma, bar⟩ : c ≠ '(' ∧ c ≠ ')' ∧ c ≠ ',' ∧ c ≠ '|' := by
        have marks := digit.mark
        simp only [List.mem_cons, List.not_mem_nil, or_false, not_or] at marks
        tauto
      exact ⟨⟨digit.quote, opening, closing⟩, by rcases either with rfl | rfl <;> assumption⟩
  | word k =>
    have letters : k.spelling.toList.all (fun c => Flat c ∧ c ≠ sep) = true := by
      rcases either with rfl | rfl <;> cases k <;> decide
    exact .ofFlat fun c member => of_decide_eq_true (List.all_eq_true.mp letters c member)

theorem numeral (n : Int) : isNumeral (toString n).toList = true := by
  have digits := naturalDigits n.natAbs
  have written : Nat.toDigits 10 n.natAbs ≠ [] := Nat.toDigits_ne_nil
  have noDot : '.' ∉ Nat.toDigits 10 n.natAbs := fun member => (digits '.' member).sign (by simp)
  have decimal : (Nat.toDigits 10 n.natAbs).all isDecimal = true :=
    List.all_eq_true.mpr fun c member => (digits c member).decimal
  have unsigned : ∀ rest, Nat.toDigits 10 n.natAbs ≠ '-' :: rest :=
    fun rest same => (digits '-' (by simp [same])).sign (by simp)
  rw [integerText]
  split
  · simp [isNumeral, cutNowhere noDot, written, decimal]
  · unfold isNumeral
    split
    · exact absurd ‹_› (unsigned _)
    · simp [cutNowhere noDot, written, decimal]

theorem reads : argument a.written.toList = a.read := by
  cases a with
  | text s =>
    rw [quotedWritten]
    exact Quoting.betweenRead (by decide) s
  | whole n =>
    have unquoted : unquoted? (toString n).toList = none := by
      have first : ∀ c ∈ (toString n).toList, isQuote c = false := by
        intro c member
        rcases integerChars n c member with rfl | digit
        · decide
        · exact digit.quote
      unfold unquoted?
      split
      · rename_i same
        simp [first _ (same ▸ List.mem_cons_self)]
      · rfl
    have kept : strip (toString n).toList = (toString n).toList := stripped (whole n)
    simp only [written, argument, kept, unquoted, numeral n, String.ofList_toList, if_true, integerReads, read, refusal]
  | word k => cases k <;> rfl

end Argument

/- A filter as it may be written, with its arguments behind a colon. -/
structure Stage where
  name : String
  args : List Argument

namespace Stage

def written (st : Stage) : String :=
  if st.args.isEmpty then st.name else st.name ++ ":" ++ String.intercalate "," (st.args.map Argument.written)

def read (place : Nat) (st : Stage) : Except SyntaxFault FilterCall :=
  match st.args.mapM Argument.read with
  | .ok args => .ok ⟨st.name, args, place⟩
  | .error fault => .error ⟨.unreadableNumber fault, place⟩

variable {st : Stage}

theorem placedRead (place : Nat) (args : List Argument) :
    (placed place (args.map (·.written.toList))).mapM (fun p => argument p.1) = args.mapM Argument.read := by
  induction args generalizing place with
  | nil => rfl
  | cons a args ih => simp only [List.map_cons, placed, List.mapM_cons, a.reads, ih]

theorem argumentsRead {args : List Argument} (some : args ≠ []) :
    arguments (.some (String.intercalate "," (args.map Argument.written)).toList) = args.mapM Argument.read := by
  have comma : Flat ',' := by decide
  have pieces : splitMarked ',' (marked (String.intercalate "," (args.map Argument.written)).toList) =
      (args.map Argument.written).map String.toList := by
    refine splitIntercalated comma (by simpa using some) (by simpa using fun a _ => (a.closed (by simp)).kept) ?_
    intro p member
    obtain ⟨a, -, rfl⟩ := List.mem_map.mp (List.mem_of_mem_tail member)
    obtain ⟨c, -, first, -, other, -⟩ := a.edges
    exact ⟨c, first, other⟩
  have solid : (String.intercalate "," (args.map Argument.written)).toList.all isBlank = false := by
    obtain ⟨a, args, rfl⟩ := List.exists_cons_of_ne_nil some
    obtain ⟨c, -, first, -, -, front, -⟩ := a.edges
    have begins : c ∈ (String.intercalate "," ((a :: args).map Argument.written)).toList :=
      List.mem_of_mem_head? (intercalateBegins first (args.map Argument.written))
    exact List.all_eq_false.mpr ⟨c, begins, by simp [front]⟩
  rw [arguments, solid, if_neg Bool.false_ne_true, splitOutside, pieces, List.map_map]
  exact placedRead 0 args

theorem closed (valid : isCallName st.name = true) : Sealed '|' st.written.toList := by
  obtain ⟨-, words⟩ := Naming.nameWords valid
  have name : Sealed '|' st.name.toList := .ofFlat fun c member =>
    ⟨flatOf (by simp [Plain.sorts]) (words c member), (Plain.ordinaryOf (by simp [Plain.sorts]) (words c member)).2.2⟩
  have comma : Sealed '|' ",".toList := .single (c := ',') (by decide)
  have colon : Sealed '|' [':'] := .single (by decide)
  have args : Sealed '|' (String.intercalate "," (st.args.map Argument.written)).toList :=
    comma.intercalated (by simpa using fun a _ => a.closed (by simp))
  rw [written]
  split
  · exact name
  · simpa using name.append (colon.append args)

theorem stripped (valid : isCallName st.name = true) : strip st.written.toList = st.written.toList := by
  obtain ⟨some, words⟩ := Naming.nameWords valid
  rw [written]
  split
  · exact Naming.wordsStripped words
  · rename_i given
    refine stripWhole (fun c first => ?_) (fun d last => ?_)
    · rw [String.toList_append, String.toList_append, List.append_assoc, List.head?_append_of_ne_nil _ some] at first
      exact Naming.wordSolid (words c (List.mem_of_mem_head? first))
    · have each : ∀ p ∈ st.args.map Argument.written, ∃ c, p.toList.getLast? = .some c ∧ isBlank c = false := by
        intro p member
        obtain ⟨a, -, rfl⟩ := List.mem_map.mp member
        obtain ⟨-, d, -, last, -, -, back⟩ := a.edges
        exact ⟨d, last, back⟩
      obtain ⟨e, ends, solid⟩ := intercalateEnds "," (by simpa using given) each
      rw [String.toList_append, List.getLast?_append, ends] at last
      cases last
      exact solid

/- The scanner takes a segment for the filter that it holds between blanks. -/
theorem filterRead {segment : List Char} (valid : isCallName st.name = true)
    (holds : strip segment = st.written.toList) (place : Nat) : filter segment place = st.read place := by
  obtain ⟨some, words⟩ := Naming.nameWords valid
  have kept := Naming.wordsStripped words
  have halves : cut ':' st.written.toList = (st.name.toList, if st.args.isEmpty then none else
      .some (String.intercalate "," (st.args.map Argument.written)).toList) := by
    rw [written]
    split
    · exact cutNowhere (Naming.wordsColon words)
    · simpa using cutHere (Naming.wordsColon words) (String.intercalate "," (st.args.map Argument.written)).toList
  have full : st.written.toList.isEmpty = false := by
    rw [written]
    split <;> simp [some]
  have args : arguments (if st.args.isEmpty then none else
      .some (String.intercalate "," (st.args.map Argument.written)).toList) = st.args.mapM Argument.read := by
    split
    · rename_i none
      rw [List.isEmpty_iff.mp none]
      rfl
    · rename_i given
      exact argumentsRead (by simpa using given)
  simp only [filter, holds, halves, full, kept, String.ofList_toList, valid, args, if_true, Bool.false_eq_true, if_false]
  rfl

/- Filters are read one after the other, each at its own place. -/
def readAll (place : Nat) : List Stage → Except SyntaxFault (List FilterCall)
  | [] => .ok []
  | st :: rest => do
    let first ← st.read place
    let others ← readAll (place + st.written.length + 3) rest
    return first :: others

/- The calls that the filters are. -/
def called (place : Nat) : List Stage → List FilterCall
  | [] => []
  | st :: rest => ⟨st.name, st.args.map Argument.value, place⟩ :: called (place + st.written.length + 3) rest

end Stage

/- An expression and the filters behind it. -/
def chain (source : String) (stages : List Stage) : String :=
  String.intercalate " | " (source :: stages.map Stage.written)

/- The same, cut at the bars. -/
def pieces (front : String) : List Stage → List String
  | [] => [front]
  | st :: rest => (front ++ " ") :: pieces (" " ++ st.written) rest

variable {front source : String} {stages : List Stage} {st : Stage} {x : Expr}

theorem chainPadded (front : String) (stages : List Stage) : chain (" " ++ front) stages = " " ++ chain front stages := by
  cases stages <;> simp [chain, String.intercalate_cons_cons, String.append_assoc]

theorem chainPieces (front : String) (stages : List Stage) :
    chain front stages = String.intercalate "|" (pieces front stages) := by
  induction stages generalizing front with
  | nil => simp [chain, pieces]
  | cons st rest ih =>
    obtain ⟨p, ps, cut⟩ : ∃ p ps, pieces (" " ++ st.written) rest = p :: ps := by
      cases rest <;> exact ⟨_, _, rfl⟩
    have behind := ih (" " ++ st.written)
    rw [chainPadded, cut] at behind
    have bar : " | " = " " ++ ("|" ++ " ") := by decide
    rw [pieces, cut, String.intercalate_cons_cons, ← behind, chain, List.map_cons, String.intercalate_cons_cons, ← chain,
      bar]
    simp only [String.append_assoc]

theorem piecesKept (kept : Kept '|' front.toList) (padded : Kept '|' (front ++ " ").toList)
    (valid : ∀ st ∈ stages, isCallName st.name = true) : ∀ p ∈ pieces front stages, Kept '|' p.toList := by
  induction stages generalizing front with
  | nil => simpa [pieces] using kept
  | cons st rest ih =>
    obtain ⟨here, others⟩ := List.forall_mem_cons.mp valid
    have space : Sealed '|' " ".toList := .single (c := ' ') (by decide)
    have alone : Sealed '|' (" " ++ st.written).toList := by
      rw [String.toList_append]
      exact space.append (Stage.closed here)
    have behind : Sealed '|' (" " ++ st.written ++ " ").toList := by
      rw [String.toList_append]
      exact alone.append space
    exact List.forall_mem_cons.mpr ⟨padded, ih alone.kept behind.kept others⟩

theorem piecesBegin (blank : front.toList.head? = some ' ') : ∀ p ∈ pieces front stages, p.toList.head? = some ' ' := by
  induction stages generalizing front with
  | nil => simpa [pieces] using blank
  | cons st rest ih =>
    refine List.forall_mem_cons.mpr ⟨?_, ih (by simp)⟩
    rw [String.toList_append, List.head?_append, blank]
    rfl

theorem piecesCalled (valid : ∀ t ∈ st :: stages, isCallName t.name = true) (place : Nat) :
    calls (placed place ((pieces (" " ++ st.written) stages).map String.toList)) = Stage.readAll place (st :: stages) := by
  have blank : isBlank ' ' = true := by decide
  induction stages generalizing st place with
  | nil =>
    have here := valid st List.mem_cons_self
    have holds : strip (" " ++ st.written).toList = st.written.toList := by
      rw [String.toList_append]
      exact (stripLead blank _).trans (Stage.stripped here)
    simp only [pieces, List.map_cons, List.map_nil, placed, calls, Stage.readAll, Stage.filterRead here holds]
  | cons next rest ih =>
    obtain ⟨here, others⟩ := List.forall_mem_cons.mp valid
    have holds : strip (" " ++ st.written ++ " ").toList = st.written.toList := by
      rw [String.toList_append, String.toList_append]
      exact (stripPadded st.written.toList).trans (Stage.stripped here)
    have length : place + (" " ++ st.written ++ " ").toList.length + 1 = place + st.written.length + 3 := by
      have space : " ".length = 1 := rfl
      simp only [String.toList_append, List.length_append, String.length_toList, space]
      omega
    simp only [pieces, List.map_cons, placed, calls, Stage.filterRead here holds, length]
    rw [ih others]
    rfl

theorem parsePadded {text : String} (ok : Expr.parse text = .ok x) : Expr.parse (text ++ " ") = .ok x := by
  obtain ⟨ls, lexed, reads⟩ := parseReads.mp ok
  have blank : isBlank ' ' = true := by decide
  have padded := lexesAppend lexed (.blank blank .nil) (by simpa using blankInert blank)
  exact parseReads.mpr ⟨ls, by simpa using padded, reads⟩

/- A chain is read as its expression is, and each filter at its place. -/
theorem chainReads (parsed : Expr.parse source = .ok x) (valid : ∀ st ∈ stages, isCallName st.name = true) :
    parse (chain source stages) =
      (Stage.readAll (source.length + 2) stages).map fun filters => ⟨trim source, x, filters⟩ := by
  have bar : Flat '|' := by decide
  have cut : splitMarked '|' (marked (chain source stages).toList) = (pieces source stages).map String.toList := by
    rw [chainPieces]
    refine splitIntercalated bar ?_ (piecesKept (parseKept parsed) (parseKept (parsePadded parsed)) valid) ?_
    · cases stages <;> simp [pieces]
    · intro p member
      cases stages with
      | nil => simp [pieces] at member
      | cons st rest => exact ⟨' ', piecesBegin (by simp) p member, by decide⟩
  cases stages with
  | nil => exact parseCut (by rw [splitOutside, cut]; rfl) parsed
  | cons st rest =>
    have length : 0 + (source ++ " ").toList.length + 1 = source.length + 2 := by
      have space : " ".length = 1 := rfl
      simp only [String.toList_append, List.length_append, String.length_toList, space]
      omega
    have same : trim (source ++ " ") = trim source := by
      rw [trim, String.toList_append]
      exact congrArg String.ofList (stripTrail (by decide) source.toList)
    have whole : parse (chain source (st :: rest)) = _ := parseCut (by rw [splitOutside, cut]; rfl) (parsePadded parsed)
    rw [whole, length, piecesCalled valid, same]

/- Arguments are read if all of them can be; if not, an integer among them is to blame. -/
theorem argumentsEither (args : List Argument) :
    ((∀ a ∈ args, a.Readable) ∧ args.mapM Argument.read = .ok (args.map Argument.value)) ∨
      ∃ n, .whole n ∈ args ∧ ¬ (Argument.whole n).Readable ∧ args.mapM Argument.read = .error (Argument.refusal n) := by
  induction args with
  | nil => exact .inl ⟨by simp, rfl⟩
  | cons a args ih =>
    rw [List.mapM_cons]
    obtain ⟨fine, here⟩ | ⟨n, rfl, long, here⟩ := a.readEither
    · rw [here]
      obtain ⟨all, others⟩ | ⟨n, member, long, refused⟩ := ih
      · exact .inl ⟨List.forall_mem_cons.mpr ⟨fine, all⟩, by rw [others]; rfl⟩
      · exact .inr ⟨n, List.mem_cons_of_mem a member, long, by rw [refused]; rfl⟩
    · exact .inr ⟨n, List.mem_cons_self, long, by rw [here]; rfl⟩

theorem stagesEither (stages : List Stage) (place : Nat) :
    ((∀ st ∈ stages, ∀ a ∈ st.args, a.Readable) ∧ Stage.readAll place stages = .ok (Stage.called place stages)) ∨
      ∃ st ∈ stages, ∃ n, .whole n ∈ st.args ∧ ¬ (Argument.whole n).Readable ∧
        ∃ place', Stage.readAll place stages = .error ⟨.unreadableNumber (Argument.refusal n), place'⟩ := by
  induction stages generalizing place with
  | nil => exact .inl ⟨by simp, rfl⟩
  | cons st rest ih =>
    obtain ⟨fine, here⟩ | ⟨n, member, long, refused⟩ := argumentsEither st.args
    · have first : st.read place = .ok ⟨st.name, st.args.map Argument.value, place⟩ := by rw [Stage.read, here]
      rw [Stage.readAll, first]
      obtain ⟨all, others⟩ | ⟨st', later, n, member, long, place', refused⟩ := ih (place + st.written.length + 3)
      · exact .inl ⟨List.forall_mem_cons.mpr ⟨fine, all⟩, by rw [others]; rfl⟩
      · exact .inr ⟨st', List.mem_cons_of_mem st later, n, member, long, place', by rw [refused]; rfl⟩
    · have first : st.read place = .error ⟨.unreadableNumber (Argument.refusal n), place⟩ := by rw [Stage.read, refused]
      exact .inr ⟨st, List.mem_cons_self, n, member, long, place, by rw [Stage.readAll, first]; rfl⟩

/- A chain is read back with its expression and its filters, their names and arguments in their order, if each
integer can be read; and an integer that cannot is refused with the fault of a value. -/
theorem chainReadsBack (source : String) (x : Expr) (stages : List Stage) (parsed : Expr.parse source = .ok x)
    (valid : ∀ st ∈ stages, isCallName st.name = true) :
    ((∀ st ∈ stages, ∀ a ∈ st.args, a.Readable) →
      parse (chain source stages) = .ok ⟨trim source, x, Stage.called (source.length + 2) stages⟩) ∧
    ((∃ st ∈ stages, ∃ a ∈ st.args, ¬ a.Readable) → ∃ st ∈ stages, ∃ n, .whole n ∈ st.args ∧
      ¬ (Argument.whole n).Readable ∧
      ∃ place, parse (chain source stages) = .error ⟨.unreadableNumber (Argument.refusal n), place⟩) := by
  rw [chainReads parsed valid]
  obtain ⟨all, read⟩ | ⟨st, member, n, given, long, place, refused⟩ := stagesEither stages (source.length + 2)
  · refine ⟨fun _ => by rw [read]; rfl, ?_⟩
    rintro ⟨st, member, a, given, unreadable⟩
    exact absurd (all st member a given) unreadable
  · refine ⟨fun all => absurd (all st member _ given) long, fun _ => ?_⟩
    exact ⟨st, member, n, given, long, place, by rw [refused]; rfl⟩

def sampleStages : List Stage :=
  [⟨"default", [.text "it's | \\,(", .whole (-12), .word .null_]⟩, ⟨"upper", []⟩]

/- An integer of one digit more than are read. -/
def sampleLong : List Stage := [⟨"f", [.whole Value.leastUnwritable]⟩]

theorem chainReadsBackQuoted : parse "f('|')||x | default:'it\\'s | \\\\,(',-12,null | upper" =
      .ok ⟨"f('|')||x", .or (.call "f" [.literal (.str "|")]) (.path "x"),
        [⟨"default", [.str "it's | \\,(", .int (-12), .null], 11⟩, ⟨"upper", [], 45⟩]⟩ ∧
    ∃ st ∈ sampleLong, ∃ n, .whole n ∈ st.args ∧ ¬ (Argument.whole n).Readable ∧
      ∃ place, parse (chain "x" sampleLong) = .error ⟨.unreadableNumber (Argument.refusal n), place⟩ := by
  obtain ⟨parsed, plain⟩ : Expr.parse "f('|')||x" = .ok (.or (.call "f" [.literal (.str "|")]) (.path "x")) ∧
    Expr.parse "x" = .ok (.path "x") := ⟨by cbv, by cbv⟩
  refine ⟨?_, ?_⟩
  · have text : chain "f('|')||x" sampleStages = "f('|')||x | default:'it\\'s | \\\\,(',-12,null | upper" := by decide
    have read := (chainReadsBack _ _ sampleStages parsed (by decide)).1 (by decide +kernel)
    rw [text] at read
    exact read
  · have long : ¬ (Argument.whole Value.leastUnwritable).Readable := by
      rw [Argument.Readable, Int.natAbs_natCast]
      exact Nat.lt_irrefl _
    exact (chainReadsBack "x" _ sampleLong plain (by decide)).2
      ⟨_, List.mem_singleton_self _, _, List.mem_singleton_self _, long⟩

theorem digitsPower (k : Nat) : (Nat.toDigits 10 (Nat.pow 10 k)).length = k + 1 := by
  have most := (digitsFit (n := Nat.pow 10 k) (k + 1) (Nat.succ_pos k)).mpr
    (Nat.pow_lt_pow_right (by omega) (Nat.lt_succ_self k))
  cases k with
  | zero => rfl
  | succ k =>
    have least := mt (digitsFit (n := Nat.pow 10 (k + 1)) (k + 1) (Nat.succ_pos k)).mp (Nat.lt_irrefl _)
    omega

/- The least integer that has too many digits stops the whole output. -/
theorem longArgumentRefused : Expr.parse "x" = .ok (.path "x") ∧ (∀ st ∈ sampleLong, isCallName st.name = true) ∧
    parse (chain "x" sampleLong) = .error ⟨.unreadableNumber (.tooManyDigits (ValueFault.maxDigits + 1)), 3⟩ := by
  have parsed : Expr.parse "x" = .ok (.path "x") := by cbv
  have valid : ∀ st ∈ sampleLong, isCallName st.name = true := by decide
  have count : (Nat.toDigits 10 Value.leastUnwritable).length = ValueFault.maxDigits + 1 := by
    unfold Value.leastUnwritable
    exact digitsPower _
  have refused : (Argument.whole Value.leastUnwritable).read = .error (.tooManyDigits (ValueFault.maxDigits + 1)) := by
    rw [Argument.read, Argument.refusal, Int.natAbs_natCast, if_neg (Nat.lt_irrefl _), count]
  have first : Stage.read 3 ⟨"f", [.whole Value.leastUnwritable]⟩ =
      .error ⟨.unreadableNumber (.tooManyDigits (ValueFault.maxDigits + 1)), 3⟩ := by
    rw [Stage.read, List.mapM_cons, refused]
    rfl
  refine ⟨parsed, valid, ?_⟩
  have place : "x".length + 2 = 3 := rfl
  rw [chainReads parsed valid, place, sampleLong, Stage.readAll, first]
  rfl

end Output
end Stencil
