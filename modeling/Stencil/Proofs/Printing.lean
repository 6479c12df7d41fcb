import Stencil.Proofs.Canonical
import Stencil.Proofs.Spelling

/-! Expressions and their texts. What the parser gives is canonical, and a canonical expression whose leaves
can be spelled is read back from its text. -/
namespace Stencil.Expr

open Text

/- The lexeme of a literal, for the values that an expression can name. -/
def literalLexeme? : Value → Option Lexeme
  | .null => some (.keyword .null_)
  | .bool true => some (.keyword .true_)
  | .bool false => some (.keyword .false_)
  | .int n => if n.natAbs < Value.leastUnwritable then some (.number (toString n)) else none
  | .str s => if s.toList.all writable then some (.text s) else none
  | _ => none

def isReserved (name : String) : Bool := (Keyword.ofSpelling? name).isSome

mutual

/- The leaves can be spelled: paths and names of calls are no keywords, and relations have a sign. -/
def spellable (e : Expr) : Bool :=
  match e with
  | .literal v => (literalLexeme? v).isSome
  | .path p => isDotted p.toList && !isReserved p
  | .call name args => isCallName name && !isReserved name && spellableAll args
  | .group e | .not e => spellable e
  | .and l r | .or l r => spellable l && spellable r
  | .compare relation l r => Relation.all.contains relation && spellable l && spellable r
termination_by structural e

def spellableAll (es : List Expr) : Bool :=
  match es with
  | [] => true
  | e :: es => spellable e && spellableAll es
termination_by structural es

end

mutual

/- The lexemes of an expression's text. -/
def spelling (e : Expr) : List Lexeme :=
  match e with
  | .literal v => (literalLexeme? v).toList
  | .path p => [.name p]
  | .call name args => .name name :: .opening :: (spellingOf args ++ [.closing])
  | .group e => .opening :: (spelling e ++ [.closing])
  | .not e => .operator .not :: spelling e
  | .and l r => spelling l ++ .operator .and :: spelling r
  | .or l r => spelling l ++ .operator .or :: spelling r
  | .compare relation l r => spelling l ++ .operator (.compare relation) :: spelling r
termination_by structural e

/- The arguments of a call, with commas between them. -/
def spellingOf (es : List Expr) : List Lexeme :=
  match es with
  | [] => []
  | e :: es => spelling e ++ (if es.isEmpty then [] else .comma :: spellingOf es)
termination_by structural es

end

/- No operator that binds more tightly than a bound goes on here, and no call begins. -/
def Stops (bound : Nat) (rest : List Lexeme) : Prop :=
  ∀ x ∈ rest.head?, x ≠ .opening ∧ ∀ l : Level, l.rank < bound → l.join? x = none

theorem stopsTighter {a b : Nat} {rest : List Lexeme} (stops : Stops b rest) (fewer : a ≤ b) : Stops a rest := by
  intro x first
  obtain ⟨noCall, none⟩ := stops x first
  exact ⟨noCall, fun l below => none l (by omega)⟩

theorem stopsAlone {bound : Nat} {rest : List Lexeme} (stops : Stops bound rest) : rest.head? ≠ some .opening :=
  fun first => (stops .opening first).1 rfl

theorem stopsMark {bound : Nat} {x : Lexeme} {rest : List Lexeme} (mark : x = .closing ∨ x = .comma) :
    Stops bound (x :: rest) := by
  intro y first
  obtain rfl : x = y := by simpa using first
  rcases mark with rfl | rfl
  · exact ⟨by simp, fun l _ => by cases l <;> rfl⟩
  · exact ⟨by simp, fun l _ => by cases l <;> rfl⟩

theorem stopsJoin {l : Level} {x : Lexeme} {join : Expr → Expr → Expr} {rest : List Lexeme}
    (joins : l.join? x = some join) : Stops l.rank (x :: rest) := by
  intro y first
  obtain rfl : x = y := by simpa using first
  obtain ⟨rfl, rfl, -⟩ | ⟨rfl, rfl, -⟩ | ⟨r, rfl, rfl, -⟩ := joinCases joins <;>
    exact ⟨by simp, fun l below => by cases l <;> simp_all [Level.join?]⟩

/- An expression is read back from its lexemes: by what reads operands of `!` if it may stand there, and as
the first operand of a chain on the level of its own operator. -/
structure ReadBack (e : Expr) : Prop where
  unary : e.looseness ≤ 1 → ∀ rest, rest.head? ≠ some .opening → Reads .unary (e.spelling ++ rest) [e] rest
  binary : ∀ l : Level, e.looseness = l.rank + 1 → ∀ rest e' rest', Stops l.rank rest →
    Reads (.chain l e) rest [e'] rest' → Reads (.binary l) (e.spelling ++ rest) [e'] rest'

namespace ReadBack

/- A level reads the expression once its operands can be read there. -/
theorem chained {e e' : Expr} {l : Level} {rest rest' : List Lexeme} (back : ReadBack e)
    (loose : e.looseness ≤ l.rank + 1) (stops : Stops l.rank rest)
    (operand : e.looseness ≤ l.rank → Reads (.operand l) (e.spelling ++ rest) [e] rest)
    (others : Reads (.chain l e) rest [e'] rest') : Reads (.binary l) (e.spelling ++ rest) [e'] rest' := by
  by_cases own : e.looseness = l.rank + 1
  · exact back.binary l own rest e' rest' stops others
  · exact .binary (operand (by omega)) others

theorem stop {e : Expr} {l : Level} {rest : List Lexeme} (stops : Stops (l.rank + 1) rest) :
    Reads (.chain l e) rest [e] rest := by
  refine .stop (fun x first => ?_)
  exact (stops x first).2 l (Nat.lt_succ_self _)

variable {e : Expr} {rest : List Lexeme}

theorem comparison (back : ReadBack e) (loose : e.looseness ≤ 1) (stops : Stops 1 rest) :
    Reads (.operand .comparison) (e.spelling ++ rest) [e] rest :=
  .comparison (back.unary loose rest (stopsAlone stops))

theorem conjunction (back : ReadBack e) (loose : e.looseness ≤ 2) (stops : Stops 2 rest) :
    Reads (.operand .conjunction) (e.spelling ++ rest) [e] rest := by
  have tighter : Stops 1 rest := stopsTighter stops (by omega)
  exact .conjunction (back.chained loose tighter (fun loose => back.comparison loose tighter) (stop stops))

theorem disjunction (back : ReadBack e) (loose : e.looseness ≤ 3) (stops : Stops 3 rest) :
    Reads (.operand .disjunction) (e.spelling ++ rest) [e] rest := by
  have tighter : Stops 2 rest := stopsTighter stops (by omega)
  exact .disjunction (back.chained loose tighter (fun loose => back.conjunction loose tighter) (stop stops))

theorem operand {l : Level} (back : ReadBack e) (loose : e.looseness ≤ l.rank) (stops : Stops l.rank rest) :
    Reads (.operand l) (e.spelling ++ rest) [e] rest := by
  cases l with
  | comparison => exact back.comparison loose stops
  | conjunction => exact back.conjunction loose stops
  | disjunction => exact back.disjunction loose stops

/- A whole expression, up to where one ends. -/
theorem whole (back : ReadBack e) (stops : Stops 4 rest) :
    Reads (.binary .disjunction) (e.spelling ++ rest) [e] rest :=
  back.chained (loosenessLe e) (stopsTighter stops (by simp))
    (fun loose => back.disjunction loose (stopsTighter stops (by simp))) (stop stops)

theorem ofPrimary (tight : e.looseness = 0)
    (reads : ∀ rest, rest.head? ≠ some .opening → Reads .primary (e.spelling ++ rest) [e] rest) : ReadBack e where
  unary _ rest alone := .unary (reads rest alone)
  binary l own := by omega

theorem ofNot (back : ReadBack e) (tight : e.looseness ≤ 1) : ReadBack (.not e) where
  unary _ rest alone := .not (back.unary tight rest alone)
  binary l own := by cases l <;> simp [looseness] at own

theorem ofJoin {l : Level} {x : Lexeme} {join : Expr → Expr → Expr} {left right : Expr}
    (joins : l.join? x = some join) (canonical : (join left right).canonical = true) (first : ReadBack left)
    (second : ReadBack right) (spelled : (join left right).spelling = left.spelling ++ x :: right.spelling) :
    ReadBack (join left right) := by
  obtain ⟨loose, fits⟩ := joinFits joins left right
  obtain ⟨fitsLeft, fitsRight⟩ := fits.mp canonical
  refine ⟨?_, ?_⟩
  · intro tight
    cases l <;> simp at loose <;> omega
  · intro l' own rest e' rest' stops others
    obtain rfl : l = l' := by cases l <;> cases l' <;> simp_all
    rw [spelled, List.append_assoc, List.cons_append]
    have here : Stops l.rank (x :: (right.spelling ++ rest)) := stopsJoin joins
    exact first.chained fitsLeft.2 here (fun loose => first.operand loose here)
      (.step joins (second.operand fitsRight.2 stops) others)

end ReadBack

theorem literalReads {v : Value} {x : Lexeme} {rest : List Lexeme} (spelled : literalLexeme? v = some x) :
    Reads .primary (x :: rest) [.literal v] rest := by
  unfold literalLexeme? at spelled
  split at spelled
  · exact Option.some.inj spelled ▸ .keyword
  · exact Option.some.inj spelled ▸ .keyword
  · exact Option.some.inj spelled ▸ .keyword
  · split at spelled
    · rename_i short
      exact Option.some.inj spelled ▸ .number (integerRead short)
    · cases spelled
  · split at spelled
    · exact Option.some.inj spelled ▸ .text
    · cases spelled
  · cases spelled

mutual

theorem readBack (e : Expr) (canonical : e.canonical = true) (spelled : e.spellable = true) : ReadBack e := by
  match e with
  | .literal v =>
    obtain ⟨x, known⟩ := Option.isSome_iff_exists.mp spelled
    refine .ofPrimary rfl (fun rest _ => ?_)
    simpa [spelling, known] using literalReads known
  | .path p => exact .ofPrimary rfl (fun rest alone => .path alone)
  | .call name args =>
    simp only [spellable, Bool.and_eq_true] at spelled
    refine .ofPrimary rfl (fun rest _ => ?_)
    cases args with
    | nil => exact .nullary spelled.1.1
    | cons a as =>
      have inner := readBackAll (a :: as) canonical spelled.2 (by simp) rest
      simpa [spelling] using Reads.call spelled.1.1 inner
  | .group e =>
    have back := readBack e canonical spelled
    refine .ofPrimary rfl (fun rest _ => ?_)
    simpa [spelling] using Reads.group (back.whole (stopsMark (.inl rfl)))
  | .not e =>
    simp only [Expr.canonical, Bool.and_eq_true, decide_eq_true_eq] at canonical
    exact .ofNot (readBack e canonical.1 spelled) canonical.2
  | .and l r =>
    have joins : Level.join? .conjunction (.operator .and) = some .and := rfl
    obtain ⟨left, right⟩ := (joinFits joins l r).2.mp canonical
    simp only [spellable, Bool.and_eq_true] at spelled
    exact .ofJoin joins canonical (readBack l left.1 spelled.1) (readBack r right.1 spelled.2) rfl
  | .or l r =>
    have joins : Level.join? .disjunction (.operator .or) = some .or := rfl
    obtain ⟨left, right⟩ := (joinFits joins l r).2.mp canonical
    simp only [spellable, Bool.and_eq_true] at spelled
    exact .ofJoin joins canonical (readBack l left.1 spelled.1) (readBack r right.1 spelled.2) rfl
  | .compare relation l r =>
    have joins : Level.join? .comparison (.operator (.compare relation)) = some (.compare relation) := rfl
    obtain ⟨left, right⟩ := (joinFits joins l r).2.mp canonical
    simp only [spellable, Bool.and_eq_true] at spelled
    exact .ofJoin joins canonical (readBack l left.1 spelled.1.2) (readBack r right.1 spelled.2) rfl
termination_by structural e

theorem readBackAll (es : List Expr) (canonical : canonicalAll es = true) (spelled : spellableAll es = true)
    (some : es ≠ []) (rest : List Lexeme) :
    Reads .arguments (spellingOf es ++ .closing :: rest) es rest := by
  match es with
  | [] => exact absurd rfl some
  | e :: es =>
    simp only [canonicalAll, Bool.and_eq_true] at canonical
    simp only [spellableAll, Bool.and_eq_true] at spelled
    have back := readBack e canonical.1 spelled.1
    cases es with
    | nil => simpa [spellingOf] using Reads.last (back.whole (stopsMark (.inl rfl)))
    | cons e' es =>
      have others := readBackAll (e' :: es) canonical.2 spelled.2 (by simp) rest
      have first : Reads (.binary .disjunction) (e.spelling ++ .comma :: (spellingOf (e' :: es) ++ .closing :: rest))
          [e] (.comma :: (spellingOf (e' :: es) ++ .closing :: rest)) := back.whole (stopsMark (.inr rfl))
      simpa [spellingOf] using Reads.more first others
termination_by structural es

end

theorem reservedName {name : String} (free : (!isReserved name) = true) : nameLexeme name = .name name := by
  have none : Keyword.ofSpelling? name = none := by simpa [isReserved] using free
  rw [nameLexeme, none]

theorem literalSpells {v : Value} {x : Lexeme} (spelled : literalLexeme? v = some x) :
    Spells (literalText v).toList x := by
  unfold literalLexeme? at spelled
  split at spelled
  · cases spelled
    exact @nameSpells "null" (by decide) (by decide)
  · cases spelled
    exact @nameSpells "true" (by decide) (by decide)
  · cases spelled
    exact @nameSpells "false" (by decide) (by decide)
  · split at spelled
    · rename_i n short
      cases spelled
      have text : literalText (.int n) = toString n := by
        rw [literalText, Value.json, Value.jsonAt, Value.decimal, if_pos short]
        rfl
      rw [text]
      exact integerSpells n
    · cases spelled
  · split at spelled
    · rename_i fine
      cases spelled
      exact jsonSpells (List.all_eq_true.mp fine)
    · cases spelled
  · cases spelled

theorem spellsBegins {s : List Char} {x : Lexeme} (spells : Spells s x) (t : List Char) :
    (s ++ t).head? ≠ some '=' := by
  obtain ⟨c, r, rfl, -, other, -⟩ := spells
  simpa using other

/- The text of an expression does not begin like the end of another operator. -/
theorem textBegins (e : Expr) (spelled : e.spellable = true) (t : List Char) :
    (e.text.toList ++ t).head? ≠ some '=' := by
  match e with
  | .literal v =>
    obtain ⟨x, known⟩ := Option.isSome_iff_exists.mp spelled
    exact spellsBegins (literalSpells known) t
  | .path p =>
    simp only [spellable, Bool.and_eq_true] at spelled
    exact spellsBegins (dottedSpells spelled.1) t
  | .call name args =>
    simp only [spellable, Bool.and_eq_true] at spelled
    simp only [text, String.toList_append, List.append_assoc]
    exact spellsBegins (callSpells spelled.1.1) _
  | .group e => simp [text]
  | .not e => simp [text]
  | .and l r | .or l r =>
    simp only [spellable, Bool.and_eq_true] at spelled
    simp only [text, String.toList_append, List.append_assoc]
    exact textBegins l spelled.1 _
  | .compare relation l r =>
    simp only [spellable, Bool.and_eq_true] at spelled
    simp only [text, String.toList_append, List.append_assoc]
    exact textBegins l spelled.1.2 _
termination_by structural e

theorem joinedLexes {e l r : Expr} {o : Operator} (known : o ∈ Operator.all)
    (text : e.text.toList = l.text.toList ++ ' ' :: (o.spelling.toList ++ ' ' :: r.text.toList))
    (left : ∀ {t ls}, Apart t → Lexes t ls → Lexes (l.text.toList ++ t) (l.spelling ++ ls))
    (right : ∀ {t ls}, Apart t → Lexes t ls → Lexes (r.text.toList ++ t) (r.spelling ++ ls))
    {t : List Char} {ls : List Lexeme} (apart : Apart t) (lexed : Lexes t ls) :
    Lexes (e.text.toList ++ t) ((l.spelling ++ .operator o :: r.spelling) ++ ls) := by
  have operator := operatorPadded known (right apart lexed)
  have all := left (by simp [Apart]) operator
  simpa [text] using all

mutual

/- The text of an expression falls into its lexemes, whatever stands behind it and apart from it. -/
theorem textLexes (e : Expr) (spelled : e.spellable = true) {t : List Char} {ls : List Lexeme} (apart : Apart t)
    (lexed : Lexes t ls) : Lexes (e.text.toList ++ t) (e.spelling ++ ls) := by
  match e with
  | .literal v =>
    obtain ⟨x, known⟩ := Option.isSome_iff_exists.mp spelled
    simpa [text, spelling, known] using spellsLexes (literalSpells known) apart lexed
  | .path p =>
    simp only [spellable, Bool.and_eq_true] at spelled
    have spells := dottedSpells spelled.1
    rw [reservedName spelled.2] at spells
    exact spellsLexes spells apart lexed
  | .call name args =>
    simp only [spellable, Bool.and_eq_true] at spelled
    have spells := callSpells spelled.1.1
    rw [reservedName spelled.1.2] at spells
    have closing : Lexes (')' :: t) (.closing :: ls) := markLexes (by simp) lexed
    have inner := textsLex args spelled.2 (by simp [Apart]) closing
    have opening : Lexes ('(' :: _) (.opening :: _) := markLexes (by simp) inner
    have all := spellsLexes spells (by simp [Apart]) opening
    simpa [text, spelling] using all
  | .group e =>
    have closing : Lexes (')' :: t) (.closing :: ls) := markLexes (by simp) lexed
    have inner := textLexes e spelled (by simp [Apart]) closing
    have opening : Lexes ('(' :: _) (.opening :: _) := markLexes (by simp) inner
    simpa [text, spelling] using opening
  | .not e =>
    have inner := notLexes (textBegins e spelled t) (textLexes e spelled apart lexed)
    simpa [text, spelling] using inner
  | .and l r =>
    simp only [spellable, Bool.and_eq_true] at spelled
    have known : Operator.and ∈ Operator.all := by decide
    exact joinedLexes known (by simp [text, Operator.spelling]) (textLexes l spelled.1) (textLexes r spelled.2)
      apart lexed
  | .or l r =>
    simp only [spellable, Bool.and_eq_true] at spelled
    have known : Operator.or ∈ Operator.all := by decide
    exact joinedLexes known (by simp [text, Operator.spelling]) (textLexes l spelled.1) (textLexes r spelled.2)
      apart lexed
  | .compare relation l r =>
    simp only [spellable, Bool.and_eq_true] at spelled
    have known : Operator.compare relation ∈ Operator.all := by
      have signs : Relation.all.all (fun r => Operator.all.contains (.compare r)) = true := by decide
      simpa using List.all_eq_true.mp signs relation (by simpa using spelled.1.1)
    exact joinedLexes known (by simp [text, Operator.spelling]) (textLexes l spelled.1.2) (textLexes r spelled.2)
      apart lexed
termination_by structural e

theorem textsLex (es : List Expr) (spelled : spellableAll es = true) {t : List Char} {ls : List Lexeme}
    (apart : Apart t) (lexed : Lexes t ls) :
    Lexes ((String.intercalate ", " (textOf es)).toList ++ t) (spellingOf es ++ ls) := by
  match es with
  | [] => simpa [textOf, spellingOf] using lexed
  | e :: es =>
    simp only [spellableAll, Bool.and_eq_true] at spelled
    cases es with
    | nil => simpa [textOf, spellingOf] using textLexes e spelled.1 apart lexed
    | cons e' es =>
      have others := textsLex (e' :: es) spelled.2 apart lexed
      have blank : isBlank ' ' = true := by decide
      have comma : Lexes (',' :: ' ' :: _) (.comma :: _) := markLexes (by simp) (Lexes.blank blank others)
      have first := textLexes e spelled.1 (by simp [Apart]) comma
      simpa [textOf, spellingOf, String.intercalate_cons_cons] using first
termination_by structural es

end

theorem printedReads {e : Expr} (canonical : e.canonical = true) (spelled : e.spellable = true) :
    parse e.text = .ok e := by
  have back := readBack e canonical spelled
  have nothing : Stops 4 [] := by simp [Stops]
  refine parseReads.mpr ⟨e.spelling, ?_, ?_⟩
  · have whole : Lexes (e.text.toList ++ []) (e.spelling ++ []) := textLexes e spelled (by simp [Apart]) .nil
    simpa using whole
  · simpa using back.whole nothing

/- Printing and parsing agree on what binds how tightly: the parser gives canonical expressions only, and
gives a canonical expression back for its text. -/
theorem printedParses (text : String) (e : Expr) :
    (parse text = .ok e → e.canonical = true) ∧
      (e.canonical = true → e.spellable = true → parse e.text = .ok e) :=
  ⟨parseCanonical, printedReads⟩

def sampleBinding : Expr :=
  .or (.and (.not (.not (.path "a.0"))) (.compare .notEqual (.compare .less (.literal (.int (-1))) (.path "$x"))
    (.call "f" [.literal (.str "\"\n"), .group (.or (.path "b") (.literal .null))]))) (.literal (.bool true))

theorem printedParsesBinding : parse "!!a.0&&-1<$x!=f('\"\\n',(b||null))||true" = .ok sampleBinding ∧
    sampleBinding.canonical = true ∧ sampleBinding.spellable = true ∧
    parse sampleBinding.text = .ok sampleBinding := by
  have parsed : parse "!!a.0&&-1<$x!=f('\"\\n',(b||null))||true" = .ok sampleBinding := by cbv
  have spelled : sampleBinding.spellable = true := by decide +kernel
  have canonical := (printedParses _ _).1 parsed
  exact ⟨parsed, canonical, spelled, (printedParses "" sampleBinding).2 canonical spelled⟩

/- The least number that has more digits than are written or read has no text to be read back from. -/
theorem longNumberLost : (Expr.literal (.int Value.leastUnwritable)).canonical = true ∧
    Value.json .spaced (.int Value.leastUnwritable) = .error .unwritable ∧
    parse (Expr.literal (.int Value.leastUnwritable)).text ≠ .ok (.literal (.int Value.leastUnwritable)) := by
  have refused : Value.json .spaced (.int Value.leastUnwritable) = .error .unwritable := by
    rw [Value.json, Value.jsonAt, Value.decimal, Int.natAbs_natCast, if_neg (Nat.lt_irrefl _)]
  have nothing : (Expr.literal (.int Value.leastUnwritable)).text = "" := by
    rw [text, literalText, refused]
    rfl
  have empty : parse "" = .error ⟨.emptyExpression, 0⟩ := by cbv
  refine ⟨rfl, refused, ?_⟩
  rw [nothing, empty]
  intro same
  cases same

end Stencil.Expr
