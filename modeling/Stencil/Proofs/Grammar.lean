import Mathlib
import Stencil.Expr.Parser

/-! The grammar of expressions: what the front of a list of lexemes is read as, and what is left of the
list. The parser finds exactly the readings of this grammar; where the tokens stand in the text plays no
part in it. -/
namespace Stencil.Expr

/- What is being read: `chain` goes on with what stands left of an operator. -/
inductive Phase where
  | operand (l : Level)
  | binary (l : Level)
  | chain (l : Level) (left : Expr)
  | unary
  | primary
  | arguments

inductive Reads : Phase → List Lexeme → List Expr → List Lexeme → Prop where
  | disjunction {ls e rest} (inner : Reads (.binary .conjunction) ls [e] rest) :
      Reads (.operand .disjunction) ls [e] rest
  | conjunction {ls e rest} (inner : Reads (.binary .comparison) ls [e] rest) :
      Reads (.operand .conjunction) ls [e] rest
  | comparison {ls e rest} (inner : Reads .unary ls [e] rest) :
      Reads (.operand .comparison) ls [e] rest
  | binary {l ls left middle e rest} (first : Reads (.operand l) ls [left] middle)
      (others : Reads (.chain l left) middle [e] rest) : Reads (.binary l) ls [e] rest
  | stop {l left ls} (ends : ∀ x ∈ ls.head?, l.join? x = none) :
      Reads (.chain l left) ls [left] ls
  | step {l left x join ls right middle e rest} (joins : l.join? x = some join)
      (next : Reads (.operand l) ls [right] middle)
      (others : Reads (.chain l (join left right)) middle [e] rest) :
      Reads (.chain l left) (x :: ls) [e] rest
  | not {ls e rest} (inner : Reads .unary ls [e] rest) :
      Reads .unary (.operator .not :: ls) [.not e] rest
  | unary {ls e rest} (inner : Reads .primary ls [e] rest) : Reads .unary ls [e] rest
  | text {s rest} : Reads .primary (.text s :: rest) [.literal (.str s)] rest
  | number {digits v rest} (value : numberValue digits = .ok v) :
      Reads .primary (.number digits :: rest) [.literal v] rest
  | keyword {k rest} : Reads .primary (.keyword k :: rest) [.literal k.value] rest
  | group {ls e rest} (inner : Reads (.binary .disjunction) ls [e] (.closing :: rest)) :
      Reads .primary (.opening :: ls) [.group e] rest
  | path {name rest} (alone : rest.head? ≠ some .opening) :
      Reads .primary (.name name :: rest) [.path name] rest
  | nullary {name rest} (valid : isCallName name = true) :
      Reads .primary (.name name :: .opening :: .closing :: rest) [.call name []] rest
  | call {name ls args rest} (valid : isCallName name = true)
      (inner : Reads .arguments ls args rest) :
      Reads .primary (.name name :: .opening :: ls) [.call name args] rest
  | last {ls e rest} (inner : Reads (.binary .disjunction) ls [e] (.closing :: rest)) :
      Reads .arguments ls [e] rest
  | more {ls e middle es rest} (first : Reads (.binary .disjunction) ls [e] (.comma :: middle))
      (others : Reads .arguments middle es rest) : Reads .arguments ls (e :: es) rest

abbrev lexemes (ts : List Token) : List Lexeme := ts.map (·.lexeme)

theorem afterSome {x : Lexeme} {ts : List Token} {rest : Shorter ts} (found : after? x ts = some rest) :
    lexemes ts = x :: lexemes rest.val := by
  cases ts with
  | nil => simp [after?] at found
  | cons t ts =>
    simp only [after?] at found
    split at found
    · rename_i same
      cases found
      simp [same]
    · simp at found

theorem afterNone {x : Lexeme} {ts : List Token} :
    after? x ts = none ↔ (lexemes ts).head? ≠ some x := by
  cases ts with
  | nil => simp [after?]
  | cons t ts => simp [after?]

theorem front {x : Lexeme} {ts : List Token} {ls : List Lexeme} (same : lexemes ts = x :: ls) :
    ∃ place ts', ts = ⟨x, place⟩ :: ts' ∧ lexemes ts' = ls := by
  cases ts with
  | nil => simp at same
  | cons t ts =>
    obtain ⟨rfl, behind⟩ := List.cons.inj same
    exact ⟨t.place, ts, rfl, behind⟩

theorem afterOf {x : Lexeme} {ts : List Token} {ls : List Lexeme} (same : lexemes ts = x :: ls) :
    ∃ rest h, after? x ts = some ⟨rest, h⟩ ∧ lexemes rest = ls := by
  obtain ⟨place, rest, rfl, behind⟩ := front same
  exact ⟨rest, by simp, by simp [after?], behind⟩

mutual

-- The order of the parser's own recursion: fewer tokens, or as many on a lower level.
theorem operandReads {stop : Nat} {l : Level} {ts : List Token} {e : Expr} {rest : Shorter ts}
    (ok : operand stop l ts = .ok (e, rest)) :
    Reads (.operand l) (lexemes ts) [e] (lexemes rest.val) := by
  cases l with
  | disjunction =>
    rw [operand] at ok
    exact .disjunction (binaryReads ok)
  | conjunction =>
    rw [operand] at ok
    exact .conjunction (binaryReads ok)
  | comparison =>
    rw [operand] at ok
    exact .comparison (unaryReads ok)
termination_by (ts.length, 2 * l.rank)

theorem binaryReads {stop : Nat} {l : Level} {ts : List Token} {e : Expr} {rest : Shorter ts}
    (ok : binary stop l ts = .ok (e, rest)) :
    Reads (.binary l) (lexemes ts) [e] (lexemes rest.val) := by
  rw [binary] at ok
  split at ok
  · simp at ok
  · rename_i left middle h first
    split at ok
    · simp at ok
    · rename_i e' rest' h' others
      cases ok
      exact .binary (operandReads first) (chainReads others)
termination_by (ts.length, 2 * l.rank + 1)

theorem chainReads {stop : Nat} {l : Level} {left : Expr} {ts : List Token} {e : Expr}
    {rest : NotLonger ts} (ok : chain stop l left ts = .ok (e, rest)) :
    Reads (.chain l left) (lexemes ts) [e] (lexemes rest.val) := by
  rw [chain.eq_def] at ok
  split at ok
  · cases ok
    exact .stop (by simp)
  · rename_i t ts'
    split at ok
    · rename_i ends
      cases ok
      exact .stop (by simpa using ends)
    · rename_i join joins
      split at ok
      · simp at ok
      · rename_i right middle h next
        split at ok
        · simp at ok
        · rename_i e' rest' h' others
          cases ok
          exact .step joins (operandReads next) (chainReads others)
termination_by (ts.length, 0)
decreasing_by all_goals (subst_vars; simp_wf; omega)

theorem unaryReads {stop : Nat} {ts : List Token} {e : Expr} {rest : Shorter ts}
    (ok : unary stop ts = .ok (e, rest)) : Reads .unary (lexemes ts) [e] (lexemes rest.val) := by
  rw [unary.eq_def] at ok
  split at ok
  · rename_i place ts'
    split at ok
    · simp at ok
    · rename_i e' rest' h inner
      cases ok
      exact .not (unaryReads inner)
  · exact .unary (primaryReads ok)
termination_by (ts.length, 1)
decreasing_by all_goals (subst_vars; simp_wf; try omega)

theorem primaryReads {stop : Nat} {ts : List Token} {e : Expr} {rest : Shorter ts}
    (ok : primary stop ts = .ok (e, rest)) : Reads .primary (lexemes ts) [e] (lexemes rest.val) := by
  rw [primary.eq_def] at ok
  split at ok
  · simp at ok
  · rename_i lexeme place ts'
    split at ok
    · cases ok
      exact .text
    · split at ok
      · rename_i value
        cases ok
        exact .number value
      · simp at ok
    · cases ok
      exact .keyword
    · split at ok
      · simp at ok
      · rename_i e' inner h first
        split at ok
        · simp at ok
        · rename_i rest' h' closed
          cases ok
          have reads := binaryReads first
          rw [afterSome closed] at reads
          exact .group reads
    · split at ok
      · rename_i absent
        cases ok
        exact .path (afterNone.mp absent)
      · rename_i inner h opened
        split at ok
        · rename_i valid
          rw [lexemes, List.map_cons, ← lexemes, afterSome opened]
          split at ok
          · rename_i rest' h' closed
            cases ok
            rw [afterSome closed]
            exact .nullary valid
          · split at ok
            · simp at ok
            · rename_i args rest' h' listed
              cases ok
              exact .call valid (argumentsRead listed)
        · simp at ok
    · simp at ok
termination_by (ts.length, 0)
decreasing_by all_goals (subst_vars; simp_wf; try omega)

theorem argumentsRead {stop : Nat} {name : String} {ts : List Token} {es : List Expr}
    {rest : Shorter ts} (ok : arguments stop name ts = .ok (es, rest)) :
    Reads .arguments (lexemes ts) es (lexemes rest.val) := by
  rw [arguments] at ok
  split at ok
  · simp at ok
  · rename_i e inner h first
    have reads := binaryReads first
    split at ok
    · rename_i rest' h' closed
      cases ok
      rw [afterSome closed] at reads
      exact .last reads
    · split at ok
      · simp at ok
      · rename_i rest' h' comma
        split at ok
        · simp at ok
        · rename_i es' rest'' h'' others
          cases ok
          rw [afterSome comma] at reads
          exact .more reads (argumentsRead others)
termination_by (ts.length, 10)
decreasing_by all_goals (subst_vars; simp_wf; try omega)

end

/- What an expression begins with. -/
theorem readsBegin {phase : Phase} {ls rest : List Lexeme} {es : List Expr}
    (reads : Reads phase ls es rest) :
    (∃ l left, phase = .chain l left) ∨
      ∃ x, ls.head? = some x ∧ x ≠ .closing ∧ (phase = .primary → x ≠ .operator .not) := by
  induction reads with
  | stop | step => exact .inl ⟨_, _, rfl⟩
  | disjunction _ ih | conjunction _ ih | comparison _ ih | binary _ _ ih | unary _ ih | last _ ih
  | more _ _ ih =>
    obtain ⟨_, _, chained⟩ | ⟨x, head, begins, -⟩ := ih
    · cases chained
    · exact .inr ⟨x, head, begins, by simp⟩
  | not => exact .inr ⟨_, rfl, by simp⟩
  | text | number | keyword | group | path | nullary | call => exact .inr ⟨_, rfl, by simp, by simp⟩

/- The parser reads `es` from the front of `ts` and leaves `rest`. -/
def Parses (stop : Nat) (phase : Phase) (ts : List Token) (es : List Expr) (rest : List Token) : Prop :=
  match phase with
  | .operand l => ∃ e h, es = [e] ∧ operand stop l ts = .ok (e, ⟨rest, h⟩)
  | .binary l => ∃ e h, es = [e] ∧ binary stop l ts = .ok (e, ⟨rest, h⟩)
  | .chain l left => ∃ e h, es = [e] ∧ chain stop l left ts = .ok (e, ⟨rest, h⟩)
  | .unary => ∃ e h, es = [e] ∧ unary stop ts = .ok (e, ⟨rest, h⟩)
  | .primary => ∃ e h, es = [e] ∧ primary stop ts = .ok (e, ⟨rest, h⟩)
  | .arguments => ∀ name, ∃ h, arguments stop name ts = .ok (es, ⟨rest, h⟩)

theorem readsParses (stop : Nat) {phase : Phase} {ls rest : List Lexeme} {es : List Expr}
    (reads : Reads phase ls es rest) {ts : List Token} (same : lexemes ts = ls) :
    ∃ rest', Parses stop phase ts es rest' ∧ lexemes rest' = rest := by
  induction reads generalizing ts with
  | disjunction _ ih =>
    obtain ⟨rest', ⟨e, h, only, ok⟩, left⟩ := ih same
    exact ⟨rest', ⟨e, h, only, by rw [operand, ok]⟩, left⟩
  | conjunction _ ih =>
    obtain ⟨rest', ⟨e, h, only, ok⟩, left⟩ := ih same
    exact ⟨rest', ⟨e, h, only, by rw [operand, ok]⟩, left⟩
  | comparison _ ih =>
    obtain ⟨rest', ⟨e, h, only, ok⟩, left⟩ := ih same
    exact ⟨rest', ⟨e, h, only, by rw [operand, ok]⟩, left⟩
  | binary _ _ first others =>
    obtain ⟨middle, ⟨left, h, only, ok⟩, same'⟩ := first same
    cases only
    obtain ⟨rest', ⟨e, h', only, ok'⟩, left⟩ := others same'
    exact ⟨rest', ⟨e, Nat.lt_of_le_of_lt h' h, only, by simp only [binary, ok, ok']⟩, left⟩
  | stop ends =>
    refine ⟨ts, ⟨_, Nat.le_refl _, rfl, ?_⟩, same⟩
    cases ts with
    | nil => rw [chain]
    | cons t ts =>
      subst same
      rw [chain]
      simp [ends t.lexeme (by simp)]
  | step joins _ _ next others =>
    obtain ⟨place, ts, rfl, behind⟩ := front same
    obtain ⟨middle, ⟨right, h, only, ok⟩, same'⟩ := next behind
    cases only
    obtain ⟨rest', ⟨e, h', only, ok'⟩, left⟩ := others same'
    refine ⟨rest', ⟨e, by simp; omega, only, ?_⟩, left⟩
    rw [chain]
    simp only [joins, ok, ok']
  | not _ ih =>
    obtain ⟨place, ts, rfl, behind⟩ := front same
    obtain ⟨rest', ⟨e, h, only, ok⟩, left⟩ := ih behind
    cases only
    refine ⟨rest', ⟨_, by simp; omega, rfl, ?_⟩, left⟩
    simp only [unary, ok]
  | unary inner ih =>
    obtain ⟨rest', ⟨e, h, only, ok⟩, left⟩ := ih same
    refine ⟨rest', ⟨e, h, only, ?_⟩, left⟩
    obtain ⟨_, _, chained⟩ | ⟨x, head, -, other⟩ := readsBegin inner
    · cases chained
    · rw [unary.eq_def]
      split
      · subst same
        cases head
        exact absurd rfl (other rfl)
      · exact ok
  | text | keyword =>
    obtain ⟨place, ts, rfl, behind⟩ := front same
    exact ⟨ts, ⟨_, by simp, rfl, by rw [primary]⟩, behind⟩
  | number value =>
    obtain ⟨place, ts, rfl, behind⟩ := front same
    exact ⟨ts, ⟨_, by simp, rfl, by simp only [primary, value]⟩, behind⟩
  | group _ ih =>
    obtain ⟨place, ts, rfl, behind⟩ := front same
    obtain ⟨inner, ⟨e, h, only, ok⟩, left⟩ := ih behind
    cases only
    obtain ⟨rest', h', closed, left⟩ := afterOf left
    exact ⟨rest', ⟨_, by simp; omega, rfl, by simp only [primary, ok, closed]⟩, left⟩
  | path alone =>
    obtain ⟨place, ts, rfl, behind⟩ := front same
    have absent := afterNone.mpr (behind ▸ alone)
    exact ⟨ts, ⟨_, by simp, rfl, by simp only [primary, absent]⟩, behind⟩
  | nullary valid =>
    obtain ⟨place, ts, rfl, behind⟩ := front same
    obtain ⟨inner, h, opened, behind⟩ := afterOf behind
    obtain ⟨rest', h', closed, left⟩ := afterOf behind
    exact ⟨rest', ⟨_, by simp; omega, rfl, by simp only [primary, opened, valid, closed, if_true]⟩,
      left⟩
  | @call name _ _ _ valid begun ih =>
    obtain ⟨place, ts, rfl, behind⟩ := front same
    obtain ⟨inner, h, opened, behind⟩ := afterOf behind
    obtain ⟨rest', listed, left⟩ := ih behind
    obtain ⟨h', listed⟩ := listed name
    have unclosed : after? .closing inner = none := by
      obtain ⟨_, _, chained⟩ | ⟨x, head, other, -⟩ := readsBegin begun
      · cases chained
      · rw [afterNone, behind, head]
        simpa using other
    refine ⟨rest', ⟨_, by simp; omega, rfl, ?_⟩, left⟩
    simp only [primary, opened, valid, unclosed, listed, if_true]
  | last _ ih =>
    obtain ⟨inner, ⟨e, h, only, ok⟩, left⟩ := ih same
    cases only
    obtain ⟨rest', h', closed, left⟩ := afterOf left
    exact ⟨rest', fun name => ⟨Nat.lt_trans h' h, by rw [arguments]; simp only [ok, closed]⟩, left⟩
  | more _ _ first others =>
    obtain ⟨inner, ⟨e, h, only, ok⟩, left⟩ := first same
    cases only
    have unclosed : after? .closing inner = none := by simp [afterNone, left]
    obtain ⟨middle, h', comma, behind⟩ := afterOf left
    obtain ⟨rest', listed, left⟩ := others behind
    refine ⟨rest', fun name => ?_, left⟩
    obtain ⟨h'', listed⟩ := listed name
    exact ⟨Nat.lt_trans h'' (Nat.lt_trans h' h), by
      rw [arguments]
      simp only [ok, unclosed, comma, listed]⟩

/- A text is an expression if its tokens read as one with nothing left, wherever they stand. -/
theorem ofTokensReads {stop : Nat} {ts : List Token} {e : Expr} :
    ofTokens stop ts = .ok e ↔ Reads (.binary .disjunction) (lexemes ts) [e] [] := by
  constructor
  · intro ok
    rw [ofTokens.eq_def] at ok
    split at ok
    · simp at ok
    · split at ok
      · simp at ok
      · rename_i found
        cases ok
        exact binaryReads found
      · simp at ok
  · intro reads
    obtain ⟨_, _, chained⟩ | ⟨x, head, -⟩ := readsBegin reads
    · cases chained
    obtain ⟨rest, ⟨e', h, only, ok⟩, nothing⟩ := readsParses stop reads rfl
    cases only
    obtain rfl : rest = [] := List.map_eq_nil_iff.mp nothing
    rw [ofTokens.eq_def]
    split
    · simp at head
    · rw [ok]

/- What one level reads to the end is the whole expression. -/
theorem levelWhole {l : Level} {ls : List Lexeme} {e : Expr} (reads : Reads (.binary l) ls [e] []) : Reads (.binary .disjunction) ls [e] [] := by
  have none : ∀ l : Level, ∀ x ∈ ([] : List Lexeme).head?, l.join? x = none := by simp
  have raised (reads : Reads (.binary .conjunction) ls [e] []) : Reads (.binary .disjunction) ls [e] [] :=
    .binary (.disjunction reads) (.stop (none _))
  cases l with
  | comparison => exact raised (.binary (.conjunction reads) (.stop (none _)))
  | conjunction => exact raised reads
  | disjunction => exact reads

end Stencil.Expr
