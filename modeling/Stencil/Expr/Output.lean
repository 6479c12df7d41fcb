import Stencil.Expr.Parser
import Stencil.Text.Split
import Stencil.Value.Literal

/-! Output directives: an expression and the filters that its value goes through, from left to right. -/
namespace Stencil

structure FilterCall where
  name : String
  args : List Value
  position : Int
  deriving Repr

/- The call as it is written; the arguments stand without quotes. -/
def FilterCall.text (f : FilterCall) : String :=
  if f.args.isEmpty then f.name
  else f.name ++ ":" ++ String.intercalate "," (f.args.map Value.shown)

structure Output where
  source : String
  expression : Expr
  filters : List FilterCall
  deriving Repr

namespace Output

open Text

def isNumeral (s : List Char) : Bool :=
  let unsigned := match s with
    | '-' :: rest => rest
    | rest => rest
  match cut '.' unsigned with
  | (whole, none) => !whole.isEmpty && whole.all isDecimal
  | (whole, some part) =>
    !whole.isEmpty && whole.all isDecimal && !part.isEmpty && part.all isDecimal

def unquoted? (s : List Char) : Option (List Char) :=
  match s with
  | first :: second :: rest =>
    if isQuote first && (second :: rest).getLast? == some first then some (second :: rest).dropLast
    else none
  | _ => none

def argument (raw : List Char) : Except ValueFault Value :=
  let s := strip raw
  let text := String.ofList s
  match unquoted? s with
  | some body => .ok (.str (String.ofList (unescape body)))
  | none =>
    if isNumeral s then Expr.numberValue text
    else match Keyword.ofSpelling? text with
      | some k => .ok k.value
      | none => .ok (.str text)

/- The arguments behind the colon. Blanks alone are no argument. -/
def arguments : Option (List Char) → Except ValueFault (List Value)
  | none => .ok []
  | some s =>
    if s.all isBlank then .ok [] else (splitOutside ',' s).mapM (fun p => argument p.1)

def filter (segment : List Char) (place : Nat) : Except SyntaxFault FilterCall :=
  let s := strip segment
  let (name, args) := cut ':' s
  let name := String.ofList (strip name)
  if s.isEmpty then .error ⟨.emptyFilter, place⟩
  else if Expr.isCallName name then
    match arguments args with
    | .ok args => .ok ⟨name, args, place⟩
    | .error fault => .error ⟨.unreadableNumber fault, place⟩
  else .error ⟨.badFilterName name, place⟩

def calls : List (List Char × Nat) → Except SyntaxFault (List FilterCall)
  | [] => .ok []
  | (segment, place) :: rest => do
    let first ← filter segment place
    let others ← calls rest
    return first :: others

def parse (text : String) : Except SyntaxFault Output := do
  match splitOutside '|' text.toList with
  | [] => throw ⟨.emptyExpression, 0⟩
  | (source, _) :: segments =>
    if source.all isBlank then throw ⟨.emptyExpression, 0⟩
    else
      let expression ← Expr.parse (String.ofList source)
      let filters ← calls segments
      return ⟨String.ofList (strip source), expression, filters⟩

end Output
end Stencil
