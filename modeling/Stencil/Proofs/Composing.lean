import Stencil.Proofs.Printing

/-! Expressions put together as texts. What is read between parentheses is read there as it is read alone,
and no character of it is joined with what stands around the parentheses. -/
namespace Stencil.Expr

open Text

theorem markInert {c : Char} (mark : c ∈ [' ', '(', ')', ',']) : Inert c := by
  have all : [' ', '(', ')', ','].all (fun d => !isWord d && !isDecimal d && signs.all (· != d)) = true := by
    decide +kernel
  have fact := List.all_eq_true.mp all c mark
  simp only [Bool.and_eq_true, Bool.not_eq_true', List.all_eq_true, bne_iff_ne] at fact
  exact ⟨fact.1.1, fact.1.2, fun d member => (fact.2 d member).symm⟩

/- A reading is left as it is by what follows, if no operand ends elsewhere because of it. -/
theorem readsBehind {phase : Phase} {ls rest : List Lexeme} {es : List Expr} (reads : Reads phase ls es rest)
    {t : List Lexeme} (stops : Stops 4 t) : Reads phase (ls ++ t) es (rest ++ t) := by
  induction reads with
  | disjunction _ ih => exact .disjunction ih
  | conjunction _ ih => exact .conjunction ih
  | comparison _ ih => exact .comparison ih
  | binary _ _ first others => exact .binary first others
  | @stop l left ls ends =>
    refine .stop fun x first => ?_
    cases ls with
    | nil => exact (stops x first).2 l (by cases l <;> decide)
    | cons y ls => exact ends x first
  | step joins _ _ next others => exact .step joins next others
  | not _ ih => exact .not ih
  | unary _ ih => exact .unary ih
  | text => exact .text
  | number value => exact .number value
  | keyword => exact .keyword
  | group _ ih => exact .group ih
  | @path name rest alone =>
    refine .path ?_
    cases rest with
    | nil => exact stopsAlone stops
    | cons y rest => exact alone
  | nullary valid => exact .nullary valid
  | call valid _ ih => exact .call valid ih
  | last _ ih => exact .last ih
  | more _ _ first others => exact .more first others

variable {ls rest : List Lexeme} {e x y : Expr}

/- What is read without an operator is an operand on every level. -/
theorem primaryOperand {l : Level} (reads : Reads .primary ls [e] rest) (stops : Stops l.rank rest) :
    Reads (.operand l) ls [e] rest := by
  have compared : Reads (.operand .comparison) ls [e] rest := .comparison (.unary reads)
  have joined (stops : Stops 2 rest) : Reads (.operand .conjunction) ls [e] rest :=
    .conjunction (.binary compared (ReadBack.stop stops))
  cases l with
  | comparison => exact compared
  | conjunction => exact joined stops
  | disjunction =>
    exact .disjunction (.binary (joined (stopsTighter stops (by decide))) (ReadBack.stop stops))

theorem groupReads (reads : Reads (.binary .disjunction) ls [e] []) (rest : List Lexeme) :
    Reads .primary (.opening :: (ls ++ .closing :: rest)) [.group e] rest :=
  .group (readsBehind reads (stopsMark (.inl rfl)))

theorem groupLexes {s t : List Char} {ls' : List Lexeme} (lexed : Lexes s ls) (others : Lexes t ls') :
    Lexes ('(' :: (s ++ ')' :: t)) (.opening :: (ls ++ .closing :: ls')) := by
  have closing : Lexes (')' :: t) (.closing :: ls') := markLexes (by simp) others
  have inert : Inert ')' := markInert (by simp)
  have inner := lexesAppend lexed closing (by simpa using inert)
  exact markLexes (by simp) inner

/- Two expressions in parentheses and an operator between them. -/
theorem joinedParses {a b : String} (left : parse a = .ok x) (right : parse b = .ok y) {l : Level} {o : Operator}
    {join : Expr → Expr → Expr} (known : o ∈ Operator.all) (joins : l.join? (.operator o) = some join) :
    parse ("(" ++ a ++ ")" ++ o.spelling ++ "(" ++ b ++ ")") = .ok (join (.group x) (.group y)) := by
  obtain ⟨ls, lexed, reads⟩ := parseReads.mp left
  obtain ⟨ls', lexed', reads'⟩ := parseReads.mp right
  refine parseReads.mpr ⟨.opening :: (ls ++ .closing :: .operator o :: .opening :: (ls' ++ [.closing])), ?_, ?_⟩
  · have second := groupLexes lexed' .nil
    have both := groupLexes lexed (operatorLexes known (markInert (by simp)) second)
    simpa using both
  · have first := groupReads reads (.operator o :: .opening :: (ls' ++ [.closing]))
    have second : Reads (.operand l) _ [.group y] [] := primaryOperand (groupReads reads' []) (by simp [Stops])
    exact levelWhole (.binary (primaryOperand first (stopsJoin joins)) (.step joins second (.stop (by simp))))

/- Texts that can be read are put together with operators as their expressions are. -/
theorem joinedComposes (a b : String) (x y : Expr) (left : parse a = .ok x) (right : parse b = .ok y) :
    parse ("(" ++ a ++ ")" ++ "||" ++ "(" ++ b ++ ")") = .ok (.or (.group x) (.group y)) ∧
    parse ("(" ++ a ++ ")" ++ "&&" ++ "(" ++ b ++ ")") = .ok (.and (.group x) (.group y)) ∧
    (∀ r ∈ Relation.all, parse ("(" ++ a ++ ")" ++ r.symbol ++ "(" ++ b ++ ")") =
      .ok (.compare r (.group x) (.group y))) ∧
    parse ("!(" ++ a ++ ")") = .ok (.not (.group x)) := by
  have signs : ∀ r ∈ Relation.all, Operator.compare r ∈ Operator.all := by decide
  refine ⟨?_, ?_, fun r known => ?_, ?_⟩
  · exact @joinedParses x y a b left right .disjunction .or .or (by decide) rfl
  · exact @joinedParses x y a b left right .conjunction .and .and (by decide) rfl
  · exact @joinedParses x y a b left right .comparison (.compare r) (.compare r) (signs r known) rfl
  · obtain ⟨ls, lexed, reads⟩ := parseReads.mp left
    have negated : Lexes ('!' :: '(' :: (a.toList ++ [')'])) (.operator .not :: .opening :: (ls ++ [.closing])) :=
      notLexes (by simp) (groupLexes lexed .nil)
    have whole : Reads (.binary .comparison) _ [.not (.group x)] [] :=
      .binary (.comparison (.not (.unary (groupReads reads [])))) (.stop (by simp))
    exact parseReads.mpr ⟨_, by simpa using negated, levelWhole whole⟩

def sampleEither : Expr :=
  .or (.call "f" [.literal (.str ")"), .literal (.int (-1))]) (.not (.path "x.0"))

def sampleAlike : Expr := .compare .same (.literal (.str "||(")) (.path "$y")

theorem joinedComposesMixed : parse "(f(')',-1) || !x.0)&&('||('===$y )" =
      .ok (.and (.group sampleEither) (.group sampleAlike)) ∧
    parse "(f(')',-1) || !x.0)!==('||('===$y )" =
      .ok (.compare .notSame (.group sampleEither) (.group sampleAlike)) ∧
    parse "!(f(')',-1) || !x.0)" = .ok (.not (.group sampleEither)) := by
  obtain ⟨left, right⟩ : parse "f(')',-1) || !x.0" = .ok sampleEither ∧
    parse "'||('===$y " = .ok sampleAlike := ⟨by cbv, by cbv⟩
  obtain ⟨-, both, compared, negated⟩ := joinedComposes _ _ _ _ left right
  have told := compared .notSame (by decide)
  rw [Relation.symbol] at told
  exact ⟨by simpa only [String.reduceAppend] using both, by simpa only [String.reduceAppend] using told,
    by simpa only [String.reduceAppend] using negated⟩

end Stencil.Expr
