import Stencil.Expr.Basic
import Stencil.Expr.Token

/-! Expressions from tokens. From loose to tight: `||`, `&&`, comparisons, `!`. The binary operators
associate to the left. Every function returns the tokens that it leaves, with the proof that it took
some; `stop` is the place just behind the last token. -/
namespace Stencil.Expr

abbrev Shorter (ts : List Token) := { rest : List Token // rest.length < ts.length }

abbrev NotLonger (ts : List Token) := { rest : List Token // rest.length ≤ ts.length }

inductive Level where
  | disjunction | conjunction | comparison
  deriving DecidableEq, Repr

@[simp] def Level.rank : Level → Nat
  | disjunction => 3
  | conjunction => 2
  | comparison => 1

def Level.join? : Level → Lexeme → Option (Expr → Expr → Expr)
  | disjunction, .operator .or => some .or
  | conjunction, .operator .and => some .and
  | comparison, .operator (.compare r) => some (.compare r)
  | _, _ => none

def placeOf (stop : Nat) : List Token → Nat
  | [] => stop
  | t :: _ => t.place

def after? (lexeme : Lexeme) (ts : List Token) : Option (Shorter ts) :=
  match ts with
  | [] => none
  | t :: rest => if t.lexeme = lexeme then some ⟨rest, Nat.lt_succ_self _⟩ else none

def unexpected (stop : Nat) : List Token → SyntaxFault
  | [] => ⟨.unexpectedEnd, stop⟩
  | t :: _ => ⟨.unexpectedToken t.lexeme.spelling, t.place⟩

mutual

def operand (stop : Nat) (l : Level) (ts : List Token) : Except SyntaxFault (Expr × Shorter ts) :=
  match l with
  | .disjunction => binary stop .conjunction ts
  | .conjunction => binary stop .comparison ts
  | .comparison => unary stop ts
termination_by (ts.length, 2 * l.rank)

def binary (stop : Nat) (l : Level) (ts : List Token) : Except SyntaxFault (Expr × Shorter ts) :=
  match operand stop l ts with
  | .error e => .error e
  | .ok (left, ⟨rest, h⟩) =>
    match chain stop l left rest with
    | .error e => .error e
    | .ok (e, ⟨rest', h'⟩) => .ok (e, ⟨rest', Nat.lt_of_le_of_lt h' h⟩)
termination_by (ts.length, 2 * l.rank + 1)

/- Goes on with `left` while operators of the level follow. -/
def chain (stop : Nat) (l : Level) (left : Expr) (ts : List Token) :
    Except SyntaxFault (Expr × NotLonger ts) :=
  match ts with
  | [] => .ok (left, ⟨[], Nat.le_refl _⟩)
  | t :: rest =>
    match l.join? t.lexeme with
    | none => .ok (left, ⟨t :: rest, Nat.le_refl _⟩)
    | some join =>
      match operand stop l rest with
      | .error e => .error e
      | .ok (right, ⟨rest', h⟩) =>
        match chain stop l (join left right) rest' with
        | .error e => .error e
        | .ok (e, ⟨rest'', h'⟩) =>
          .ok (e, ⟨rest'', Nat.le_succ_of_le (Nat.le_of_lt (Nat.lt_of_le_of_lt h' h))⟩)
termination_by (ts.length, 0)

def unary (stop : Nat) (ts : List Token) : Except SyntaxFault (Expr × Shorter ts) :=
  match ts with
  | ⟨.operator .not, _⟩ :: rest =>
    match unary stop rest with
    | .error e => .error e
    | .ok (e, ⟨rest', h⟩) => .ok (.not e, ⟨rest', Nat.lt_succ_of_lt h⟩)
  | ts => primary stop ts
termination_by (ts.length, 1)

def primary (stop : Nat) (ts : List Token) : Except SyntaxFault (Expr × Shorter ts) :=
  match ts with
  | [] => .error (unexpected stop [])
  | ⟨lexeme, place⟩ :: rest =>
    let one : Shorter (⟨lexeme, place⟩ :: rest) := ⟨rest, Nat.lt_succ_self _⟩
    match lexeme with
    | .text s => .ok (.literal (.str s), one)
    | .number digits =>
      match numberValue digits with
      | .ok v => .ok (.literal v, one)
      | .error fault => .error ⟨.unreadableNumber fault, place⟩
    | .keyword k => .ok (.literal k.value, one)
    | .opening =>
      match binary stop .disjunction rest with
      | .error e => .error e
      | .ok (e, ⟨inner, h⟩) =>
        match after? .closing inner with
        | none => .error ⟨.unclosedGroup, placeOf stop inner⟩
        | some ⟨rest', h'⟩ => .ok (.group e, ⟨rest', by simp; omega⟩)
    | .name name =>
      match after? .opening rest with
      | none => .ok (.path name, one)
      | some ⟨inner, h⟩ =>
        if isCallName name then
          match after? .closing inner with
          | some ⟨rest', h'⟩ => .ok (.call name [], ⟨rest', by simp; omega⟩)
          | none =>
            match arguments stop name inner with
            | .error e => .error e
            | .ok (args, ⟨rest', h'⟩) => .ok (.call name args, ⟨rest', by simp; omega⟩)
        else .error ⟨.badFunctionName name, place⟩
    | lexeme => .error (unexpected stop [⟨lexeme, place⟩])
termination_by (ts.length, 0)

def arguments (stop : Nat) (name : String) (ts : List Token) :
    Except SyntaxFault (List Expr × Shorter ts) :=
  match binary stop .disjunction ts with
  | .error e => .error e
  | .ok (e, ⟨inner, h⟩) =>
    match after? .closing inner with
    | some ⟨rest, h'⟩ => .ok ([e], ⟨rest, Nat.lt_trans h' h⟩)
    | none =>
      match after? .comma inner with
      | none => .error ⟨.unclosedCall name, placeOf stop inner⟩
      | some ⟨rest, h'⟩ =>
        match arguments stop name rest with
        | .error e => .error e
        | .ok (es, ⟨rest', h''⟩) =>
          .ok (e :: es, ⟨rest', Nat.lt_trans h'' (Nat.lt_trans h' h)⟩)
termination_by (ts.length, 10)

end

def ofTokens (stop : Nat) (ts : List Token) : Except SyntaxFault Expr :=
  match ts with
  | [] => .error ⟨.emptyExpression, 0⟩
  | ts =>
    match binary stop .disjunction ts with
    | .error e => .error e
    | .ok (e, ⟨[], _⟩) => .ok e
    | .ok (_, ⟨rest, _⟩) => .error (unexpected stop rest)

def parse (text : String) : Except SyntaxFault Expr :=
  match scan text with
  | .error e => .error e
  | .ok ts => ofTokens text.length ts

end Stencil.Expr
