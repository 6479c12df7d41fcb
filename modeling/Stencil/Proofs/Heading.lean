import Stencil.Proofs.Checking
import Stencil.Proofs.Composing
import Stencil.Proofs.Enclosing
import Stencil.Proofs.Naming

/-! Headers of loops. A header is cut at a word `in` before the lexer has seen it; the word that is found is the
one that the lexer takes for a name of its own and that no parentheses enclose. -/
namespace Stencil

open Stencil.Expr Text

/- The lexemes in front of which no parenthesis is open, if `d` parentheses were open before. -/
def Lexeme.outermost (d : Nat) : List Lexeme → List Lexeme
  | [] => []
  | l :: ls => (if d = 0 then [l] else []) ++ outermost (l.deepen d) ls

namespace Loop

variable {s t : List Char} {m : List (Char × Bool)} {atStart : Bool} {before : List Char}

/- Neither behind a blank nor at the start of the whole does an `in` stand that is marked as outside. -/
def Quiet (atStart : Bool) (m : List (Char × Bool)) : Prop :=
  ∀ front rest behind, m = front ++ rest → (front = [] → atStart = true) →
    (∀ x ∈ front.getLast?, isBlank x.1 = true) → wordIn? rest ≠ some (true, behind)

/- The place where a word was found, and what is left behind it. -/
theorem wordPlace {top : Bool} {behind : List (Char × Bool)} (found : wordIn? m = some (top, behind)) :
    ∃ mark others, m = ('i', top) :: ('n', mark) :: others ∧
      ((others = [] ∧ behind = []) ∨ ∃ c, isBlank c.1 = true ∧ others = c :: behind) := by
  unfold wordIn? at found
  split at found
  · cases found
    exact ⟨_, _, rfl, .inl ⟨rfl, rfl⟩⟩
  · split at found
    · rename_i blank
      cases found
      exact ⟨_, _, rfl, .inr ⟨_, blank, rfl⟩⟩
    · cases found
  · cases found

theorem keywordPlace {top : Bool} {behind : List (Char × Bool)} (found : keyword? atStart m = some (top, behind)) :
    ∃ front rest, m = front ++ rest ∧ (front = [] → atStart = true) ∧ (∀ x ∈ front.getLast?, isBlank x.1 = true) ∧
      wordIn? rest = some (top, behind) := by
  unfold keyword? at found
  split at found
  · rename_i here
    cases found
    cases atStart with
    | true => exact ⟨[], m, rfl, fun _ => rfl, by simp, here⟩
    | false => cases here
  · split at found
    · rename_i c mark rest _
      split at found
      · rename_i blank
        exact ⟨[(c, mark)], rest, rfl, by simp, by simpa using blank, found⟩
      · cases found
    · cases found

theorem Quiet.behind (front : List (Char × Bool)) (quiet : Quiet atStart (front ++ m)) : Quiet false m := by
  intro between rest behind whole start blank
  have some : between ≠ [] := fun none => Bool.noConfusion (start none)
  refine quiet (front ++ between) rest behind (by rw [whole, List.append_assoc]) (by simp [some]) ?_
  rwa [List.getLast?_append_of_ne_nil _ some]

theorem splitQuiet (quiet : Quiet atStart m) : splitFrom before atStart m = none := by
  fun_induction splitFrom before atStart m with
  | case1 before atStart m behind found =>
    obtain ⟨front, rest, whole, start, blank, word⟩ := keywordPlace found
    exact absurd word (quiet front rest behind whole start blank)
  | case2 before atStart m behind found ih =>
    obtain ⟨front, rest, rfl, -, -, word⟩ := keywordPlace found
    obtain ⟨mark, others, rfl, ⟨rfl, rfl⟩ | ⟨c, -, rfl⟩⟩ := wordPlace word
    · exact ih (Quiet.behind (front ++ [('i', false), ('n', mark)]) (by simpa using quiet))
    · exact ih (Quiet.behind (front ++ [('i', false), ('n', mark), c]) (by simpa using quiet))
  | case3 => rfl
  | case4 before atStart c mark rest none ih => exact ih (Quiet.behind [(c, mark)] quiet)

/- An `in` in front of a blank, or at the end, is a name for the lexer. -/
theorem inLexeme (apart : ∀ c ∈ s.head?, isBlank c = true) : lexeme? 'i' ('n' :: s) = some (.name "in", 1) := by
  have alone : lexeme? 'i' ['n'] = some (.name "in", 1) := by cbv
  cases s with
  | nil => exact alone
  | cons c s => exact lexemeBehind (blankInert (apart c rfl)) alone s

/- It is enough to look for what begins in the first part, and for what begins behind it. -/
theorem Quiet.append {w : List (Char × Bool)} (quiet : Quiet true m)
    (inner : ∀ front x others behind, w = front ++ x :: others → (∀ y ∈ front.getLast?, isBlank y.1 = true) →
      wordIn? (x :: others ++ m) ≠ some (true, behind)) : Quiet true (w ++ m) := by
  intro front rest behind whole _ last
  obtain ⟨between, rfl, rfl⟩ | ⟨others, rfl, rfl⟩ := List.append_eq_append_iff.mp whole
  · refine quiet between rest behind rfl (fun _ => rfl) ?_
    cases between with
    | nil => simp
    | cons x between => rwa [List.getLast?_append_of_ne_nil _ (List.cons_ne_nil x between)] at last
  · cases others with
    | nil => exact quiet [] m behind rfl (fun _ => rfl) (by simp)
    | cons x others => exact inner front x others behind rfl last

/- What begins in a lexeme, or behind it: the lexeme is the word, or there is no blank in it, or it is a text. -/
theorem lexemeQuiet {c : Char} {l : Lexeme} {n d : Nat} (found : lexeme? c s = some (l, n))
    (quiet : Quiet true ((s.drop n).zip (outside (l.deepen d) none (s.drop n)))) (free : d = 0 → l ≠ .name "in") :
    Quiet true ((c :: s).zip (outside d none (c :: s))) := by
  have takes := lexemeTakes found
  have whole : c :: s = (c :: s.take n) ++ s.drop n := by simp
  have marks : (c :: s).zip (outside d none (c :: s)) = (c :: s.take n).zip (outside d none (c :: s.take n)) ++
      (s.drop n).zip (outside (l.deepen d) none (s.drop n)) := by
    conv_lhs => rw [whole]
    exact takes.leads.marks (s.drop n)
  rw [marks]
  refine Quiet.append quiet fun front x others behind cut last word => ?_
  obtain ⟨mark, more, same, ends⟩ := wordPlace word
  have here : x = ('i', true) := (List.cons.inj same).1
  have member : ('i', true) ∈ (c :: s.take n).zip (outside d none (c :: s.take n)) := by simp [cut, here]
  obtain solid | shut := takes.inside (d := d)
  -- In a lexeme without blanks the word can only be at its start, and then it is all of it.
  · cases front with
    | cons y front =>
      obtain ⟨z, back⟩ := Option.isSome_iff_exists.mp (List.getLast?_isSome.mpr (List.cons_ne_nil y front))
      have inside : z ∈ (c :: s.take n).zip (outside d none (c :: s.take n)) := by
        rw [cut]
        exact List.mem_append_left _ (List.mem_of_getLast? back)
      have no := solid z.1 (List.of_mem_zip inside).1
      rw [last z back] at no
      cases no
    | nil =>
      have text : c :: s = 'i' :: 'n' :: more.map Prod.fst := by
        have all : (c :: s).zip (outside d none (c :: s)) = ('i', true) :: ('n', mark) :: more := by
          rw [marks, cut]
          exact same
        have fronts := congrArg (List.map Prod.fst) all
        rwa [List.map_fst_zip (by rw [length_outside])] at fronts
      obtain ⟨rfl, rfl⟩ := List.cons.inj text
      have alone : lexeme? 'i' ('n' :: more.map Prod.fst) = some (.name "in", 1) := by
        refine inLexeme fun b first => ?_
        obtain ⟨rfl, -⟩ | ⟨b', blank, rfl⟩ := ends
        · cases first
        · cases first
          exact blank
      have top : d = 0 := by
        have head := congrArg (fun w => w.head?.map Prod.snd) cut
        rw [flatMark (by decide)] at head
        simpa [here] using head
      rw [alone] at found
      cases found
      exact free top rfl
  -- In a text in quotes every place is marked as inside.
  · have never := shut true (List.of_mem_zip member).2
    cases never

/- No `in` is found in a text whose lexemes have none outside of parentheses. -/
theorem lexesQuiet {ls : List Lexeme} (lexed : Lexes s ls) (d : Nat) (free : .name "in" ∉ Lexeme.outermost d ls) :
    Quiet true (s.zip (outside d none s)) := by
  induction lexed generalizing d with
  | nil =>
    intro front rest behind whole _ _
    obtain ⟨-, rfl⟩ := List.append_eq_nil_iff.mp whole.symm
    simp [wordIn?]
  | @blank c s ls blank _ ih =>
    have mark : outside d none (c :: s) = (d == 0) :: outside d none s :=
      flatMark (flatOf (by simp [Plain.sorts]) blank) d s
    rw [mark]
    refine Quiet.append (w := [(c, d == 0)]) (ih d free) fun front x others behind whole last found => ?_
    obtain ⟨rfl, rfl, rfl⟩ : front = [] ∧ x = (c, d == 0) ∧ others = [] := by
      cases front <;> simp_all
    obtain ⟨mark, more, same, -⟩ := wordPlace found
    have letter : c = 'i' := congrArg Prod.fst (List.cons.inj same).1
    have solid : isBlank 'i' = false := by decide
    simp [letter, solid] at blank
  | lexeme solid found _ ih =>
    rw [Lexeme.outermost, List.mem_append, not_or] at free
    exact lexemeQuiet found (ih _ free.2) fun top same => free.1 (by simp [top, same])

variable {v : List Char}

/- In front of a name that is another word no `in` is found, -/
theorem nameNoWord (words : ∀ c ∈ v, isWord c = true) (other : v ≠ ['i', 'n']) (m : List (Char × Bool)) :
    wordIn? (v.map (·, true) ++ (' ', true) :: m) = none := by
  by_contra some
  obtain ⟨⟨top, behind⟩, found⟩ := Option.ne_none_iff_exists'.mp some
  obtain ⟨mark, others, same, ends⟩ := wordPlace found
  match v with
  | [] => cases same
  | [c] => cases same
  | [c, d] =>
    cases same
    exact other rfl
  | c :: d :: e :: v =>
    obtain ⟨-, behind⟩ := List.cons.inj same
    obtain ⟨-, rfl⟩ := List.cons.inj behind
    obtain ⟨none, -⟩ | ⟨b, blank, front⟩ := ends
    · cases none
    · obtain ⟨rfl, -⟩ := List.cons.inj front
      have solid := Naming.wordSolid (words e (by simp))
      rw [blank] at solid
      cases solid

theorem splitFound {behind : List (Char × Bool)} (found : keyword? atStart m = some (true, behind)) :
    splitFrom before atStart m = some (before.reverse, behind.map (·.1)) := by
  rw [splitFrom.eq_def]
  split <;> simp_all

theorem splitStep {c : Char} {top : Bool} (none : keyword? atStart ((c, top) :: m) = none) :
    splitFrom before atStart ((c, top) :: m) = splitFrom (c :: before) false m := by
  rw [splitFrom.eq_def]
  split
  · simp_all
  · simp_all
  · rfl

/- nor in it. -/
theorem splitPast {behind : List (Char × Bool)} (words : ∀ c ∈ v, isWord c = true)
    (found : keyword? false m = some (true, behind)) :
    splitFrom before false (v.map (·, true) ++ m) = some (before.reverse ++ v, behind.map (·.1)) := by
  induction v generalizing before with
  | nil => simpa using splitFound found
  | cons c v ih =>
    obtain ⟨word, others⟩ := List.forall_mem_cons.mp words
    have none : keyword? false ((c, true) :: (v.map (·, true) ++ m)) = none := by
      simp [keyword?, Naming.wordSolid word]
    rw [List.map_cons, List.cons_append, splitStep none, ih others]
    simp

theorem splitNamed (words : ∀ c ∈ v, isWord c = true) (written : v ≠ []) (other : v ≠ ['i', 'n']) (s : List Char) :
    split? (v ++ (" in ".toList ++ s)) = some (v, s) := by
  have flat : ∀ c ∈ v, Flat c := fun c member => flatOf (by simp [Plain.sorts]) (words c member)
  have blank : isBlank ' ' = true := by decide
  have marks : (" in ".toList ++ s).zip (outside 0 none (" in ".toList ++ s)) =
      (' ', true) :: ('i', true) :: ('n', true) :: (' ', true) :: s.zip (outside 0 none s) := by
    have plain : " in ".toList.all (Flat ·) = true := by decide
    rw [flatMarks (by simpa using plain)]
    rfl
  have found : keyword? false ((' ', true) :: ('i', true) :: ('n', true) :: (' ', true) :: s.zip (outside 0 none s)) =
      some (true, s.zip (outside 0 none s)) := by
    simp [keyword?, wordIn?, blank]
  rw [split?, marked, flatMarks flat, marks]
  cases v with
  | nil => exact absurd rfl written
  | cons c v =>
    obtain ⟨word, others⟩ := List.forall_mem_cons.mp words
    have none : keyword? true ((c, true) :: (v.map (·, true) ++ (' ', true) :: ('i', true) :: ('n', true) ::
        (' ', true) :: s.zip (outside 0 none s))) = none := by
      have no := nameNoWord words other (('i', true) :: ('n', true) :: (' ', true) :: s.zip (outside 0 none s))
      rw [List.map_cons, List.cons_append] at no
      simp [keyword?, no, Naming.wordSolid word]
    have top : ((0 : Nat) == 0) = true := rfl
    rw [top, List.map_cons, List.cons_append, splitStep none, splitPast others found,
      List.map_fst_zip (by rw [length_outside])]
    simp

end Loop

namespace Text

/- Blanks at the end of what follows a name are blanks at the end of the whole. -/
theorem stripBehind {s t : List Char} (first : ∀ c ∈ s.head?, isBlank c = false) (written : s ≠ [])
    (solid : t.all isBlank = false) : strip (s ++ t) = s ++ stripBack t := by
  obtain ⟨c, s, rfl⟩ := List.exists_cons_of_ne_nil written
  have front : stripFront (c :: s ++ t) = c :: s ++ t := by simp [stripFront, first c rfl]
  have left : (t.reverse.dropWhile isBlank).isEmpty = false := by
    rw [List.isEmpty_eq_false_iff, ne_eq, List.dropWhile_eq_nil_iff]
    intro blank
    have all : t.all isBlank = true := by simpa using blank
    rw [all] at solid
    cases solid
  rw [strip, front, stripBack, List.reverse_append, List.dropWhile_append, left]
  simp [stripBack]

theorem stripTwice (s : List Char) : strip (stripBack s) = strip s := by
  induction s using List.reverseRecOn with
  | nil => rfl
  | append_singleton s b ih =>
    by_cases blank : isBlank b = true
    · have shorter : stripBack (s ++ [b]) = stripBack s := by simp [stripBack, blank]
      rw [shorter, ih, stripTrail blank]
    · have same : stripBack (s ++ [b]) = s ++ [b] := by simp [stripBack, blank]
      rw [same]

end Text

namespace Loop

variable {v c : String}

theorem collectionWritten (solid : allBlank c = false) : strip c.toList ≠ [] := by
  intro nothing
  rw [allBlank, stripNothing nothing] at solid
  cases solid

theorem headerAlone (solid : allBlank c = false) (none : split? (strip c.toList) = none) :
    header c = .ok (defaultName, trim c) := by
  have named : Node.isLoopName defaultName = true := by decide
  simp [header, none, collectionWritten solid, named, trim]

theorem asciiCallName (ascii : isAsciiName v.toList = true) : isCallName v = true := by
  rw [isCallName]
  cases parts : v.toList with
  | nil => simp [parts, isAsciiName] at ascii
  | cons c rest =>
    simp only [parts, isAsciiName, Bool.and_eq_true, List.all_eq_true] at ascii
    simp only [isWordName, Bool.and_eq_true, List.all_eq_true]
    exact ⟨ascii.1, fun d member => Naming.asciiIsWord (ascii.2 d member)⟩

theorem headerNamed (ascii : isAsciiName v.toList = true) (other : v ≠ "in") (solid : allBlank c = false)
    (none : split? (strip c.toList) = none) : header (v ++ " in " ++ c) = .ok (v, trim c) := by
  obtain ⟨written, words⟩ := Naming.nameWords (asciiCallName ascii)
  have text : strip (v ++ " in " ++ c).toList = v.toList ++ (" in ".toList ++ stripBack c.toList) := by
    have front : ∀ d ∈ (v.toList ++ " in ".toList).head?, isBlank d = false := by
      intro d first
      rw [List.head?_append_of_ne_nil _ written] at first
      exact Naming.wordSolid (words d (List.mem_of_mem_head? first))
    rw [String.toList_append, String.toList_append, stripBehind front (by simp [written]) solid, List.append_assoc]
  have cut := splitNamed words written (fun same => other (String.toList_inj.mp same)) (stripBack c.toList)
  have name := Naming.wordsStripped words
  simp only [header, text, cut, name, stripTwice, none]
  simp [collectionWritten solid, Node.loopNamed ascii, trim]

theorem headerTrimmed (text : String) : header (trim text) = header text := by
  have front : stripFront (stripFront text.toList) = stripFront text.toList :=
    List.dropWhile_idempotent _ _
  have same : strip (strip text.toList) = strip text.toList := by
    conv_lhs => rw [strip.eq_def text.toList, stripTwice, strip, front]
    rw [strip]
  simp only [header, trim, String.toList_ofList, same]

theorem loopPiece {s : List Char} (closes : Delimiters.Closes s) (rest : List Char) :
    Token.piece .standard Delimiters.standard.openers '$' ("\x7b#each".toList ++ (' ' :: s ++ '\x7d' :: rest)) =
      .ok ⟨.loopStart, String.ofList (strip s), s.length + 9⟩ := by
  have piece := Quoting.blockPiece (o := ⟨.loopStart, "$\x7b#each".toList⟩) (by simp [Quoting.blocks]) closes rest
  have length : 7 + s.length + 2 = s.length + 9 := by omega
  simpa [length] using piece

/- The directive of a loop, closed at once. -/
theorem loopScanned {source : String} (closes : Delimiters.Closes source.toList) : ∃ (p q : Position) (first second : Nat),
    Token.scan .standard ("$\x7b#each " ++ source ++ "\x7d$\x7b/each\x7d") =
      .ok [⟨.loopStart, trim source, .start, first⟩, ⟨.loopEnd, "", p, second⟩, ⟨.eof, "", q, q.offset⟩] := by
  have text : ("$\x7b#each " ++ source ++ "\x7d$\x7b/each\x7d").toList =
      '$' :: ("\x7b#each".toList ++ (' ' :: source.toList ++ '\x7d' :: "$\x7b/each\x7d".toList)) := by
    simp
  have rest : ("\x7b#each".toList ++ (' ' :: source.toList ++ '\x7d' :: "$\x7b/each\x7d".toList)).drop
      (source.toList.length + 9 - 1) = "$\x7b/each\x7d".toList := by
    simp
  have last : Token.piece .standard Delimiters.standard.openers '$' "\x7b/each\x7d".toList =
      .ok ⟨.loopEnd, "", 8⟩ := by
    rw [Token.piece, Delimiters.standardOpeners]
    rfl
  have behind : "$\x7b/each\x7d".toList = '$' :: "\x7b/each\x7d".toList := rfl
  have nothing : "\x7b/each\x7d".toList.drop (8 - 1) = [] := rfl
  rw [Token.scan, text, Token.scanFrom, loopPiece closes]
  simp only [rest]
  rw [behind, Token.scanFrom, last]
  simp only [nothing, Token.scanFrom, reduceCtorEq, if_false]
  exact ⟨_, _, _, _, rfl⟩

theorem loopRead {source collection : String} (named : header source = .ok (v, collection)) (p q : Position)
    (first second : Nat) : Node.ofTokens .standard [⟨.loopStart, trim source, .start, first⟩,
      ⟨.loopEnd, "", p, second⟩, ⟨.eof, "", q, q.offset⟩] = .ok (.root .start [.loop .start v collection []]) := by
  simp [Node.ofTokens, Node.read, Node.opened, Limits.standard, headerTrimmed, named]

/- A header is cut at its own `in` and nowhere in the expression, whatever texts and calls in it hold. -/
theorem headerSplits (v c : String) (x : Expr) (ts : List Expr.Token) (ascii : isAsciiName v.toList = true)
    (other : v ≠ "in") (parsed : Expr.parse c = .ok x) (scanned : Expr.scan c = .ok ts)
    (free : .name "in" ∉ Lexeme.outermost 0 (lexemes ts)) :
    header (v ++ " in " ++ c) = .ok (v, trim c) ∧ header c = .ok ("item", trim c) ∧
    ∃ tokens, Token.scan .standard ("$\x7b#each " ++ v ++ " in " ++ c ++ "\x7d$\x7b/each\x7d") = .ok tokens ∧
      Node.ofTokens .standard tokens = .ok (.root .start [.loop .start v (trim c) []]) := by
  have lexed := scannedLexes scanned
  have solid := parseSolid parsed
  have none : split? (strip c.toList) = none := splitQuiet (lexesQuiet (lexesStripped lexed) 0 free)
  have named := headerNamed ascii other solid none
  have plain : Plain (v ++ " in " ++ c).toList := by
    have ordinary : " in ".toList.all (Plain.Ordinary ·) = true := by decide
    have between : Plain " in ".toList := .ofOrdinary (by simpa using ordinary)
    have words := Naming.wordsPlain (Naming.nameWords (asciiCallName ascii)).2
    simpa using (words.append between).append (.ofLexes lexed)
  obtain ⟨p, q, first, second, tokens⟩ := loopScanned (Delimiters.closesPlain plain)
  exact ⟨named, headerAlone solid none, _, by simpa only [String.append_assoc] using tokens,
    loopRead named p q first second⟩

def sampleRows : List Expr.Token := [⟨.name "f", 1⟩, ⟨.opening, 2⟩, ⟨.text " in ", 3⟩, ⟨.comma, 9⟩, ⟨.name "in", 11⟩,
  ⟨.closing, 14⟩, ⟨.operator .or, 15⟩, ⟨.text " in ", 17⟩]

theorem headerSplitsQuoted : header "row in  f(' in ', in )||' in '" = .ok ("row", "f(' in ', in )||' in '") ∧
    ∃ tokens, Token.scan .standard "$\x7b#each row in  f(' in ', in )||' in '\x7d$\x7b/each\x7d" = .ok tokens ∧
      Node.ofTokens .standard tokens = .ok (.root .start [.loop .start "row" "f(' in ', in )||' in '" []]) := by
  obtain ⟨parsed, scanned⟩ : Expr.parse " f(' in ', in )||' in '" =
        .ok (.or (.call "f" [.literal (.str " in "), .path "in"]) (.literal (.str " in "))) ∧
      Expr.scan " f(' in ', in )||' in '" = .ok sampleRows := ⟨by cbv, by cbv⟩
  have free : .name "in" ∉ Lexeme.outermost 0 (lexemes sampleRows) := by decide
  obtain ⟨named, -, tokens⟩ := headerSplits "row" _ _ _ (by decide) (by decide) parsed scanned free
  have collection : trim " f(' in ', in )||' in '" = "f(' in ', in )||' in '" := by decide
  rw [collection] at named tokens
  exact ⟨by simpa only [String.reduceAppend] using named, by simpa only [String.reduceAppend] using tokens⟩

end Loop
end Stencil
