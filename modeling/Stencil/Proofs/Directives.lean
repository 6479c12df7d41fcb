import Stencil.Expr.Output
import Stencil.Markup.Lexer
import Stencil.Proofs.Stripping

/-! Where an output directive ends, and where the expression in it ends. The search for the closing delimiter
and the search for a filter both stop behind an expression and not before, whatever its texts hold. -/
namespace Stencil

open Stencil.Expr Text Token

/- Texts that nothing in them ends: a brace or a single bar stands between quotes only. -/
inductive Plain : List Char → Prop where
  | nil : Plain []
  | char {c s} (noQuote : isQuote c = false) (noBrace : c ≠ '\x7d') (noBar : c ≠ '|') (others : Plain s) :
      Plain (c :: s)
  | bars {s} (others : Plain s) : Plain ('|' :: '|' :: s)
  | quoted {c s n} (quote : isQuote c = true) (closed : closingQuote? c s = some n)
      (others : Plain (s.drop (n + 1))) : Plain (c :: s)

namespace Plain

def Ordinary (c : Char) : Prop := isQuote c = false ∧ c ≠ '\x7d' ∧ c ≠ '|'

instance (c : Char) : Decidable (Ordinary c) := inferInstanceAs (Decidable (_ ∧ _ ∧ _))

theorem ofOrdinary {s : List Char} (ordinary : ∀ c ∈ s, Ordinary c) : Plain s := by
  induction s with
  | nil => exact .nil
  | cons c s ih =>
    obtain ⟨noQuote, noBrace, noBar⟩ := ordinary c (by simp)
    exact .char noQuote noBrace noBar (ih fun d member => ordinary d (List.mem_cons_of_mem _ member))

theorem append {s t : List Char} (first : Plain s) (second : Plain t) : Plain (s ++ t) := by
  induction first with
  | nil => exact second
  | char noQuote noBrace noBar _ ih => exact .char noQuote noBrace noBar ih
  | bars _ ih => exact .bars ih
  | @quoted c s n quote closed _ ih =>
    have fits : n + 1 ≤ s.length := closingFits closed
    refine .quoted quote (closingAppend (quoteSign quote).2 closed t) ?_
    rwa [← List.drop_append_of_le_length fits] at ih

/- The sorts of characters that lexemes are made of, and the marks of a template, which are of none of them. -/
def sorts : List (Char → Bool) := [isNameRest, isNameStart, isDecimal, isBlank, isWord]

def marks : List Char := ['\'', '"', '\x7b', '\x7d', '|', ':', '#', '/', '!']

theorem marksApart {sort : Char → Bool} (known : sort ∈ sorts) {c : Char} (mark : c ∈ marks) : sort c = false := by
  have apart : sorts.all (fun sort => marks.all (fun c => !sort c)) = true := by decide +kernel
  simpa using List.all_eq_true.mp (List.all_eq_true.mp apart sort known) c mark

theorem markNoWord {c : Char} (mark : c ∈ marks) : isWord c = false := marksApart (by simp [sorts]) mark

theorem ordinaryOf {c : Char} {sort : Char → Bool} (known : sort ∈ sorts) (holds : sort c = true) : Ordinary c := by
  have differs : ∀ d ∈ marks, c ≠ d := by
    rintro d mark rfl
    rw [marksApart known mark] at holds
    cases holds
  refine ⟨?_, differs _ (by decide), differs _ (by decide)⟩
  simp [isQuote, differs '\'' (by decide), differs '"' (by decide)]

theorem restOrdinary {c : Char} (part : isNameRest c = true) : Ordinary c := ordinaryOf (by simp [sorts]) part

theorem startOrdinary {c : Char} (start : isNameStart c = true) : Ordinary c := ordinaryOf (by simp [sorts]) start

theorem decimalOrdinary {c : Char} (decimal : isDecimal c = true) : Ordinary c := ordinaryOf (by simp [sorts]) decimal

theorem blankOrdinary {c : Char} (blank : isBlank c = true) : Ordinary c := ordinaryOf (by simp [sorts]) blank

theorem dotOrdinary : Ordinary '.' := by decide

theorem nameOrdinary (s : List Char) : ∀ c ∈ s.take (nameLength s), Ordinary c := by
  intro c member
  rcases nameChars s c member with part | rfl
  · exact restOrdinary part
  · exact dotOrdinary

theorem digitsChars {s rest : List Char} (digits : afterDigits? s = some rest) :
    ∃ front, s = front ++ rest ∧ front ≠ [] ∧ ∀ c ∈ front, isDecimal c = true ∨ c = '.' := by
  have run (t : List Char) : ∀ c ∈ t.takeWhile isDecimal, isDecimal c = true ∨ c = '.' :=
    fun c member => .inl (List.all_eq_true.mp List.all_takeWhile c member)
  have cut (t : List Char) : t = t.takeWhile isDecimal ++ t.drop (t.takeWhile isDecimal).length := by
    conv_lhs => rw [← List.take_append_drop (t.takeWhile isDecimal).length t]
    rw [← List.prefix_iff_eq_take.mp (List.takeWhile_prefix isDecimal)]
  have whole := cut s
  obtain ⟨some, left⟩ := Option.ite_none_left_eq_some.mp digits
  have solid : s.takeWhile isDecimal ≠ [] := fun none => some (by simp [none])
  generalize s.drop (s.takeWhile isDecimal).length = r at left whole
  rw [Option.some.injEq] at left
  -- A point belongs to the number only if digits follow; if not, nothing more is taken.
  by_cases fraction : ∃ t, r = '.' :: t ∧ t.takeWhile isDecimal ≠ []
  · obtain ⟨t, rfl, part⟩ := fraction
    have behind : t.drop (t.takeWhile isDecimal).length = rest := by simpa [part] using left
    refine ⟨s.takeWhile isDecimal ++ '.' :: t.takeWhile isDecimal, ?_, by simp, ?_⟩
    · rw [List.append_assoc, List.cons_append, ← behind, ← cut t]
      exact whole
    · simp only [List.mem_append, List.mem_cons]
      rintro c (here | rfl | there)
      · exact run s c here
      · exact .inr rfl
      · exact run t c there
  · have behind : r = rest := by
      cases r with
      | nil => simpa using left
      | cons d t =>
        by_cases dot : d = '.'
        · subst dot
          have none : t.takeWhile isDecimal = [] := by
            by_contra part
            exact fraction ⟨t, rfl, part⟩
          simpa [none] using left
        · simpa [dot] using left
    exact ⟨_, by rw [← behind]; exact whole, solid, run s⟩

/- A number: digits with at most one minus sign in front of them, and perhaps a point. -/
theorem numberShape {s : List Char} {n : Nat} (digits : numberLength? s = some n) :
    ∃ front, front ≠ [] ∧ (s.take n = front ∨ s.take n = '-' :: front) ∧ ∀ c ∈ front, isDecimal c = true ∨ c = '.' := by
  by_cases signed : s.head? = some '-'
  · obtain ⟨u, rfl⟩ := List.head?_eq_some_iff.mp signed
    rw [numberSigned, Option.map_eq_some_iff] at digits
    obtain ⟨rest, digits, rfl⟩ := digits
    obtain ⟨front, rfl, solid, chars⟩ := digitsChars digits
    have length : (front ++ rest).length + 1 - rest.length = front.length + 1 := by
      simp
      omega
    exact ⟨front, solid, .inr (by rw [length, List.take_succ_cons, List.take_left]), chars⟩
  · rw [numberUnsigned signed, Option.map_eq_some_iff] at digits
    obtain ⟨rest, digits, rfl⟩ := digits
    obtain ⟨front, rfl, solid, chars⟩ := digitsChars digits
    have length : (front ++ rest).length - rest.length = front.length := by simp
    exact ⟨front, solid, .inl (by rw [length, List.take_left]), chars⟩

theorem numberChars {s : List Char} {n : Nat} (digits : numberLength? s = some n) :
    0 < n ∧ ∀ c ∈ s.take n, isDecimal c = true ∨ c ∈ ['.', '-'] := by
  obtain ⟨front, solid, spelled, chars⟩ := numberShape digits
  constructor
  · refine Nat.pos_of_ne_zero ?_
    rintro rfl
    simp [solid.symm] at spelled
  · intro c member
    rcases spelled with whole | whole <;> rw [whole] at member
    · exact (chars c member).imp_right (by simp +contextual)
    · rcases List.mem_cons.mp member with rfl | later
      · exact .inr (by simp)
      · exact (chars c later).imp_right (by simp +contextual)

theorem numberOrdinary {s : List Char} {n : Nat} (digits : numberLength? s = some n) :
    0 < n ∧ ∀ c ∈ s.take n, Ordinary c := by
  obtain ⟨some, chars⟩ := numberChars digits
  have sign : Ordinary '-' := by decide
  have points : ∀ c ∈ ['.', '-'], Ordinary c := by simpa using ⟨dotOrdinary, sign⟩
  exact ⟨some, fun c member => (chars c member).elim decimalOrdinary (points c)⟩

theorem operatorPlain {o : Operator} {c : Char} {s : List Char} (first : operator? (c :: s) = some o)
    (others : Plain (s.drop (o.spelling.length - 1))) : Plain (c :: s) := by
  have starts : o.spelling.toList.isPrefixOf (c :: s) = true := by simpa using List.find?_some first
  obtain ⟨t, whole⟩ := List.isPrefixOf_iff_prefix.mp starts
  have known : ∀ p ∈ Operator.all,
      p = .or ∨ p.spelling.toList ≠ [] ∧ p.spelling.toList.all (Ordinary ·) = true := by decide
  rcases known o (List.mem_of_find?_eq_some first) with rfl | ⟨solid, ordinary⟩
  · cases whole
    exact .bars others
  · rw [← String.length_toList] at others
    rw [← whole]
    refine (ofOrdinary (by simpa using ordinary)).append ?_
    cases spelled : o.spelling.toList with
    | nil => exact absurd spelled solid
    | cons d spelling =>
      rw [spelled, List.cons_append, List.cons.injEq] at whole
      simpa [spelled, ← whole.2] using others

theorem ofLexes {s : List Char} {ls : List Lexeme} (lexed : Lexes s ls) : Plain s := by
  induction lexed with
  | nil => exact .nil
  | blank blank others ih =>
    obtain ⟨noQuote, noBrace, noBar⟩ := blankOrdinary blank
    exact .char noQuote noBrace noBar ih
  | @lexeme c s l n ls solid found others ih =>
    have whole : c :: s = (c :: s.take n) ++ s.drop n := by simp
    cases lexemeBegins found with
    | text quote closed => exact .quoted quote closed ih
    | @number m digits =>
      obtain ⟨some, ordinary⟩ := numberOrdinary digits
      obtain ⟨n, rfl⟩ := Nat.exists_eq_succ_of_ne_zero (Nat.ne_of_gt some)
      rw [whole]
      exact (ofOrdinary ordinary).append ih
    | operator first => exact operatorPlain first ih
    | mark mark other =>
      have ordinary : Ordinary c := by rcases mark with rfl | rfl | rfl <;> decide
      exact .char ordinary.1 ordinary.2.1 ordinary.2.2 ih
    | keyword start | name start =>
      rw [whole]
      exact (ofOrdinary (List.forall_mem_cons.mpr ⟨startOrdinary start, nameOrdinary s⟩)).append ih

theorem closerStep {c : Char} (noBrace : c ≠ '\x7d') (s : List Char) :
    Delimiters.standard.closerIndex? ['\x7d'] (c :: s) =
      match if isQuote c then closingQuote? c s else none with
      | some n => (Delimiters.standard.closerIndex? ['\x7d'] (s.drop (n + 1))).map (· + n + 2)
      | none => (Delimiters.standard.closerIndex? ['\x7d'] s).map (· + 1) := by
  have differs : ¬ (Delimiters.standard.fold ((c :: s).take 1) == ['\x7d']) = true := by
    simpa [Delimiters.fold, Delimiters.standard] using noBrace
  rw [Delimiters.closerIndex?]
  exact if_neg differs

/- No brace in it closes a directive. -/
theorem passed {s : List Char} (plain : Plain s) (rest : List Char) :
    Delimiters.standard.closerIndex? ['\x7d'] (s ++ rest) =
      (Delimiters.standard.closerIndex? ['\x7d'] rest).map (· + s.length) := by
  induction plain with
  | nil => simp
  | char noQuote noBrace _ _ ih =>
    rw [List.cons_append, closerStep noBrace, noQuote]
    simp [ih, Function.comp_def, Nat.add_assoc]
  | bars _ ih =>
    have noQuote : isQuote '|' = false := by decide
    rw [List.cons_append, List.cons_append, closerStep (by decide), noQuote]
    simp only [Bool.false_eq_true, if_false]
    rw [closerStep (by decide), noQuote]
    simp [ih, Function.comp_def, Nat.add_assoc]
  | @quoted c s n quote closed _ ih =>
    have noBrace : c ≠ '\x7d' := by
      rintro rfl
      simp [isQuote] at quote
    have fits : n + 1 ≤ s.length := closingFits closed
    have size (k : Nat) : k + (s.length - (n + 1)) + n + 2 = k + (s.length + 1) := by omega
    rw [List.cons_append, closerStep noBrace, quote, if_pos rfl, closingAppend (quoteSign quote).2 closed]
    simp only [List.drop_append_of_le_length fits, ih, Option.map_map, List.length_drop, List.length_cons,
      Function.comp_def, size]

theorem splitPassed {sep c : Char} {top : Bool} (kept : (top && c = sep) = false) (rest : List (Char × Bool)) :
    splitMarked sep ((c, top) :: rest) = lengthen [c] (splitMarked sep rest) := by
  rw [splitMarked.eq_def]
  simp only [kept, Bool.false_eq_true, if_false]

theorem splitKept {sep c : Char} {top : Bool} {rest : List (Char × Bool)} {t : List Char}
    (kept : (top && c = sep) = false) (others : splitMarked sep rest = [t]) :
    splitMarked sep ((c, top) :: rest) = [c :: t] := by
  rw [splitPassed kept, others]
  rfl

theorem splitShut {sep : Char} {rest : List (Char × Bool)} {t : List Char}
    (others : splitMarked sep rest = [t]) (s : List Char) :
    splitMarked sep (s.map (·, false) ++ rest) = [s ++ t] := by
  induction s with
  | nil => exact others
  | cons c s ih => exact splitKept rfl ih

/- All between two quotes is marked as standing inside, and what follows as if no quote were there. -/
theorem outsideClosed {quote : Char} {s : List Char} {n : Nat} (noEscape : quote ≠ '\\')
    (closed : closingQuote? quote s = some n) (depth : Nat) (t : List Char) :
    outside depth (some quote) (s.take (n + 1) ++ t) = List.replicate (n + 1) false ++ outside depth none t := by
  fun_induction closingQuote? quote s generalizing n with
  | case1 => simp at closed
  | case2 c rest ih =>
    obtain ⟨m, inner, rfl⟩ := Option.map_eq_some_iff.mp closed
    simp [outside, ih inner, List.replicate_succ]
  | case3 rest plain =>
    cases closed
    rw [List.take_succ_cons, List.take_zero, List.singleton_append, outside]
    · simp
    · rintro d u rfl
      exact absurd rfl noEscape
  | case4 c rest plain other ih =>
    obtain ⟨m, inner, rfl⟩ := Option.map_eq_some_iff.mp closed
    have noBackslash : c ≠ '\\' := by
      rintro rfl
      cases rest with
      | nil => simp [closingQuote?] at inner
      | cons d rest => exact plain d rest rfl rfl
    rw [List.take_succ_cons, List.cons_append, outside, if_neg other, ih inner, List.replicate_succ]
    · rfl
    · exact fun d u same => absurd same noBackslash

theorem outsideQuoted {quote : Char} {s : List Char} {n : Nat} (noEscape : quote ≠ '\\')
    (closed : closingQuote? quote s = some n) (depth : Nat) :
    s.zip (outside depth (some quote) s) =
      (s.take (n + 1)).map (·, false) ++ (s.drop (n + 1)).zip (outside depth none (s.drop (n + 1))) := by
  have shut := outsideClosed noEscape closed depth (s.drop (n + 1))
  have size : (s.take (n + 1)).length = n + 1 := List.length_take_of_le (closingFits closed)
  have whole := List.take_append_drop (n + 1) s
  rw [whole] at shut
  rw [shut]
  generalize s.take (n + 1) = front at whole size ⊢
  generalize s.drop (n + 1) = behind at whole ⊢
  rw [← whole, List.zip_append (by simpa using size), ← size, ← List.map_const', List.map_prod_left_eq_zip]

/- A filter begins nowhere in it. -/
theorem unsplit {s : List Char} (plain : Plain s) (depth : Nat) :
    splitMarked '|' (s.zip (outside depth none s)) = [s] := by
  induction plain generalizing depth with
  | nil => rfl
  | @char c s noQuote _ noBar _ ih =>
    have alone (top : Bool) (below : Nat) :
        splitMarked '|' ((c, top) :: s.zip (outside below none s)) = [c :: s] :=
      splitKept (by simp [noBar]) (ih below)
    rw [outside]
    simp only [noQuote, Bool.false_eq_true, if_false]
    split
    · exact alone _ _
    · split
      · exact alone _ _
      · exact alone _ _
  | @bars s _ ih =>
    have marks : outside depth none ('|' :: '|' :: s) =
        (depth == 0) :: (depth == 0) :: outside depth none s := by simp [outside, isQuote]
    rw [marks, List.zip_cons_cons, List.zip_cons_cons]
    cases top : depth == 0 with
    | true => simp [splitMarked, ih, lengthen]
    | false => exact splitKept rfl (splitKept rfl (ih depth))
  | @quoted c s n quote closed _ ih =>
    have shut := splitShut (ih depth) (c :: s.take (n + 1))
    rw [outside, quote, if_pos rfl, List.zip_cons_cons, outsideQuoted (quoteSign quote).2 closed]
    simpa using shut

theorem splitOutside {s : List Char} (plain : Plain s) : Text.splitOutside '|' s = [(s, 0)] := by
  simp [Text.splitOutside, marked, plain.unsplit 0, placed]

end Plain

theorem stripTrail {b : Char} (blank : isBlank b = true) (s : List Char) : strip (s ++ [b]) = strip s := by
  simp only [strip, stripFront, List.dropWhile_append]
  split
  · rename_i none
    rw [List.isEmpty_iff] at none
    simp [none, blank, stripBack]
  · simp [stripBack, blank]

theorem stripLead {b : Char} (blank : isBlank b = true) (s : List Char) : strip (b :: s) = strip s := by
  simp [strip, stripFront, blank]

theorem stripPadded (s : List Char) : strip (' ' :: (s ++ [' '])) = strip s := by
  have blank : isBlank ' ' = true := by decide
  rw [stripLead blank, stripTrail blank]

theorem lexesBlank {s : List Char} {ls : List Lexeme} (lexed : Lexes s ls)
    (blank : s.all isBlank = true) : ls = [] := by
  induction lexed with
  | nil => rfl
  | blank _ _ ih =>
    simp only [List.all_cons, Bool.and_eq_true] at blank
    exact ih blank.2
  | lexeme solid _ _ _ => simp [solid] at blank

theorem parseSolid {text : String} {e : Expr} (ok : Expr.parse text = .ok e) : allBlank text = false := by
  obtain ⟨ls, lexed, reads⟩ := parseReads.mp ok
  rw [Bool.eq_false_iff]
  intro blank
  obtain ⟨_, _, chained⟩ | ⟨x, head, -⟩ := readsBegin reads
  · cases chained
  · simp [lexesBlank lexed blank] at head

/- In an expression alone there are no filters. -/
theorem Output.parseAlone {text : String} {e : Expr} (ok : Expr.parse text = .ok e) :
    Output.parse text = .ok ⟨trim text, e, []⟩ := by
  obtain ⟨ls, lexed, -⟩ := parseReads.mp ok
  have solid : text.toList.all isBlank = false := parseSolid ok
  simp only [Output.parse, (Plain.ofLexes lexed).splitOutside, solid, String.ofList_toList, ok]
  rfl

namespace Delimiters

theorem standardOpeners : standard.openers = [
    ⟨.inclusion, "$\x7binclude".toList⟩, ⟨.loopEnd, "$\x7b/each\x7d".toList⟩,
    ⟨.conditionalElse, "$\x7belse\x7d".toList⟩, ⟨.loopStart, "$\x7b#each".toList⟩,
    ⟨.conditionalEnd, "$\x7b/if\x7d".toList⟩, ⟨.conditionalStart, "$\x7b#if".toList⟩,
    ⟨.comment, "$\x7b!--".toList⟩, ⟨.output, "$\x7b".toList⟩] := by cbv

theorem openersBegin : ∀ o ∈ standard.openers, ['$', '\x7b'] <+: o.folded := by
  rw [standardOpeners]
  decide

theorem interruptsBegin {s : List Char} (interrupts : standard.interrupts standard.openers s = true) :
    ['$', '\x7b'] <+: s := by
  simp only [Delimiters.interrupts, Bool.and_eq_true, List.any_eq_true] at interrupts
  obtain ⟨⟨o, member, reads⟩, -⟩ := interrupts
  rw [readsAt_eq_isPrefixOf rfl, List.isPrefixOf_iff_prefix] at reads
  exact (openersBegin o member).trans reads

theorem openerBegin {s : List Char} {o : Opener} (opens : standard.opener? standard.openers s = some o) :
    ['$', '\x7b'] <+: s := by
  have here := List.find?_some opens
  have begins := openersBegin o (List.mem_of_find?_eq_some opens)
  simp only [opensAt, Bool.and_eq_true, beq_iff_eq] at here
  have same : s.take o.folded.length = o.folded := here.1.2
  rw [← same] at begins
  exact begins.trans (List.take_prefix _ _)

/- No other directive begins with the brace of an output and one of these letters behind it. -/
theorem outputOpens {c : Char} (other : c ∉ ['i', '/', 'e', '#', '!']) (rest : List Char) :
    standard.opener? standard.openers ('$' :: '\x7b' :: c :: rest) = some ⟨.output, ['$', '\x7b']⟩ := by
  obtain ⟨inclusion, ending, alternative, block, comment⟩ : c ≠ 'i' ∧ c ≠ '/' ∧ c ≠ 'e' ∧ c ≠ '#' ∧ c ≠ '!' := by
    simpa using other
  have brace : isWord '\x7b' = false := Plain.markNoWord (by decide)
  rw [standardOpeners]
  simp [opener?, opensAt, fold, standard, brace, inclusion, ending, alternative, block, comment]

/- The first brace that closes a directive is the one behind this text. -/
def Closes (s : List Char) : Prop :=
  ∀ rest, standard.closerIndex? ['\x7d'] (s ++ '\x7d' :: rest) = some s.length

theorem closesHere (rest : List Char) : standard.closerIndex? ['\x7d'] ('\x7d' :: rest) = some 0 := by
  rw [closerIndex?]
  rfl

theorem closesPlain {s : List Char} (plain : Plain s) : Closes s := by
  intro rest
  rw [plain.passed, closesHere]
  simp

theorem directiveCloses {o : Opener} {s : List Char} (kind : o.kind ∈ [.output, .conditionalStart, .loopStart])
    (closes : Closes s) (rest : List Char) :
    directive standard o (o.folded ++ (s ++ '\x7d' :: rest)) =
      .ok ⟨o.kind, String.ofList (strip s), o.folded.length + s.length + 1⟩ := by
  have ends : standard.fold standard.variableEnd.toList = ['\x7d'] := by decide
  have length : standard.variableEnd.length = 1 := by decide
  obtain ⟨kind', folded⟩ := o
  simp only [List.mem_cons, List.not_mem_nil, or_false] at kind
  rcases kind with rfl | rfl | rfl
  · simp only [directive, List.drop_left, ends, closes rest, List.take_left, length]
  · simp only [directive, List.drop_left, ends, closes rest, List.take_left, length]
  · simp only [directive, List.drop_left, ends, closes rest, List.take_left, length]

/- Texts in which no directive begins. -/
def Bare (s : List Char) : Prop := ¬ ['$', '\x7b'] <:+: s

/- The template ends here, or the directive of an output begins. -/
def Stops (s : List Char) : Prop := s = [] ∨ ∃ rest, s = '$' :: '\x7b' :: ' ' :: rest

theorem bareTail {c : Char} {s : List Char} (bare : Bare (c :: s)) : Bare s :=
  fun inside => bare (inside.trans (List.suffix_cons c s).isInfix)

theorem bareAhead {c : Char} {s tail : List Char} (bare : Bare (c :: s)) (stops : Stops tail) :
    ¬ ['$', '\x7b'] <+: c :: (s ++ tail) := by
  intro begins
  obtain ⟨rfl, follows⟩ := List.cons_prefix_cons.mp begins
  cases s with
  | nil => rcases stops with rfl | ⟨rest, rfl⟩ <;> simp at follows
  | cons d s =>
    obtain ⟨rfl, -⟩ := List.cons_prefix_cons.mp follows
    exact bare ⟨[], s, rfl⟩

theorem stopsInterrupt (rest : List Char) :
    standard.interrupts standard.openers ('$' :: '\x7b' :: ' ' :: rest) = true := by
  have output : (⟨.output, ['$', '\x7b']⟩ : Opener) ∈ standard.openers := by
    rw [standardOpeners]
    decide
  have space : ' ' ∉ ['i', '/', 'e', '#', '!'] := by decide
  simp only [interrupts, outputOpens space, Option.isSome_some, Bool.and_true, List.any_eq_true]
  exact ⟨_, output, by simp [readsAt_eq_isPrefixOf (d := standard) rfl]⟩

theorem textStops {s tail : List Char} (bare : Bare s) (stops : Stops tail) :
    standard.textLength standard.openers (s ++ tail) = s.length := by
  induction s with
  | nil =>
    rcases stops with rfl | ⟨rest, rfl⟩
    · rfl
    · simp [textLength, stopsInterrupt]
  | cons c s ih =>
    have goes : standard.interrupts standard.openers (c :: (s ++ tail)) = false :=
      Bool.eq_false_iff.mpr fun interrupts => bareAhead bare stops (interruptsBegin interrupts)
    simp [textLength, goes, ih (bareTail bare)]

theorem textPiece {c : Char} {s tail : List Char} (bare : Bare (c :: s)) (stops : Stops tail) :
    piece standard standard.openers c (s ++ tail) =
      .ok ⟨.text, String.ofList (c :: s), s.length + 1⟩ := by
  have shut : standard.opener? standard.openers (c :: (s ++ tail)) = none :=
    Option.eq_none_iff_forall_ne_some.mpr fun o opens => bareAhead bare stops (openerBegin opens)
  simp [piece_eq, shut, textStops (bareTail bare) stops]

theorem closedPiece {c : Char} {s : List Char} (other : c ∉ ['i', '/', 'e', '#', '!']) (closes : Closes (c :: s))
    (rest : List Char) : piece standard standard.openers '$' ('\x7b' :: c :: (s ++ '\x7d' :: rest)) =
      .ok ⟨.output, String.ofList (strip (c :: s)), s.length + 4⟩ := by
  have ends := directiveCloses (o := ⟨.output, ['$', '\x7b']⟩) (by simp) closes rest
  have length : 2 + (s.length + 1) + 1 = s.length + 4 := by omega
  rw [piece, outputOpens other]
  simpa [length] using ends

theorem outputPiece {s : List Char} (plain : Plain s) (rest : List Char) :
    piece standard standard.openers '$' ('\x7b' :: ' ' :: (s ++ ' ' :: '\x7d' :: rest)) =
      .ok ⟨.output, String.ofList (strip s), s.length + 5⟩ := by
  have space : Plain [' '] := .char (by decide) (by decide) (by decide) .nil
  have closes : Closes (' ' :: (s ++ [' '])) := closesPlain (space.append (plain.append space))
  have whole := closedPiece (by decide) closes rest
  rw [stripPadded] at whole
  simpa using whole

end Delimiters
end Stencil
