import Stencil.Descent
import Stencil.Expr.Parser

/-! Expressions from tokens by descent, one function for each form. What binds tighter is read further down.
Each call takes one unit of the fuel, and so does each turn of a loop. -/
namespace Stencil.Expr.Descent

open Stencil.Descent

/- What the cursor goes over: the tokens, and behind them the end of the text. -/
inductive Item where
  | token (t : Token)
  | stop (place : Nat)
  deriving DecidableEq, Repr

def Item.place : Item → Nat
  | token t => t.place
  | stop place => place

def Item.lexeme? : Item → Option Lexeme
  | token t => some t.lexeme
  | stop _ => none

/- The end is never passed. -/
def advance (is : List Item) (place : Nat) : Descent SyntaxFault Nat := do
  let i ← current is place
  return if i.lexeme? = none then place else place + 1

/- Passes the lexeme if it stands at the cursor. -/
def accept (is : List Item) (lexeme : Lexeme) (place : Nat) : Descent SyntaxFault (Bool × Nat) := do
  let i ← current is place
  if i.lexeme? = some lexeme then return (true, ← advance is place) else return (false, place)

mutual

def operand (fuel : Nat) (is : List Item) (l : Level) (place : Nat) : Descent SyntaxFault (Expr × Nat) :=
  match fuel with
  | 0 => throw .exhausted
  | fuel + 1 =>
    match l with
    | .disjunction => binary fuel is .conjunction place
    | .conjunction => binary fuel is .comparison place
    | .comparison => unary fuel is place
termination_by structural fuel

def binary (fuel : Nat) (is : List Item) (l : Level) (place : Nat) : Descent SyntaxFault (Expr × Nat) :=
  match fuel with
  | 0 => throw .exhausted
  | fuel + 1 => do
    let (left, place) ← operand fuel is l place
    chain fuel is l left place
termination_by structural fuel

/- Goes on with `left` while operators of the level follow. -/
def chain (fuel : Nat) (is : List Item) (l : Level) (left : Expr) (place : Nat) : Descent SyntaxFault (Expr × Nat) :=
  match fuel with
  | 0 => throw .exhausted
  | fuel + 1 => do
    let i ← current is place
    match i.lexeme?.bind l.join? with
    | none => return (left, place)
    | some join =>
      let (right, place) ← operand fuel is l (← advance is place)
      chain fuel is l (join left right) place
termination_by structural fuel

def unary (fuel : Nat) (is : List Item) (place : Nat) : Descent SyntaxFault (Expr × Nat) :=
  match fuel with
  | 0 => throw .exhausted
  | fuel + 1 => do
    match ← accept is (.operator .not) place with
    | (true, place) =>
      let (e, place) ← unary fuel is place
      return (.not e, place)
    | (false, place) => primary fuel is place
termination_by structural fuel

def primary (fuel : Nat) (is : List Item) (place : Nat) : Descent SyntaxFault (Expr × Nat) :=
  match fuel with
  | 0 => throw .exhausted
  | fuel + 1 => do
    match ← accept is .opening place with
    | (true, place) =>
      let (e, place) ← binary fuel is .disjunction place
      match ← accept is .closing place with
      | (true, place) => return (.group e, place)
      | (false, place) => refuse ⟨.unclosedGroup, (← current is place).place⟩
    | (false, place) =>
      match ← current is place with
      | .token ⟨.text s, _⟩ => return (.literal (.str s), ← advance is place)
      | .token ⟨.number digits, here⟩ =>
        let place ← advance is place
        let v ← given ((numberValue digits).mapError fun fault => ⟨.unreadableNumber fault, here⟩)
        return (.literal v, place)
      | .token ⟨.keyword k, _⟩ => return (.literal k.value, ← advance is place)
      | .token ⟨.name name, here⟩ =>
        match ← accept is .opening (← advance is place) with
        | (true, place) =>
          if isCallName name then
            match ← accept is .closing place with
            | (true, place) => return (.call name [], place)
            | (false, place) =>
              let (args, place) ← arguments fuel is name place
              return (.call name args, place)
          else refuse ⟨.badFunctionName name, here⟩
        | (false, place) => return (.path name, place)
      | .token t => refuse (unexpected t.place [t])
      | .stop here => refuse (unexpected here [])
termination_by structural fuel

def arguments (fuel : Nat) (is : List Item) (name : String) (place : Nat) :
    Descent SyntaxFault (List Expr × Nat) :=
  match fuel with
  | 0 => throw .exhausted
  | fuel + 1 => do
    let (e, place) ← binary fuel is .disjunction place
    match ← accept is .closing place with
    | (true, place) => return ([e], place)
    | (false, place) =>
      match ← accept is .comma place with
      | (true, place) =>
        let (es, place) ← arguments fuel is name place
        return (e :: es, place)
      | (false, place) => refuse ⟨.unclosedCall name, (← current is place).place⟩
termination_by structural fuel

end

/- The tokens with the end behind them. -/
def items (stop : Nat) (ts : List Token) : List Item := ts.map .token ++ [.stop stop]

def parse (fuel : Nat) (text : String) : Descent SyntaxFault Expr := do
  let is ← given ((scan text).map (items text.length))
  if is.length = 1 then refuse ⟨.emptyExpression, 0⟩
  else
    let (e, place) ← binary fuel is .disjunction 0
    match ← current is place with
    | .stop _ => return e
    | .token t => refuse (unexpected t.place [t])

end Stencil.Expr.Descent
