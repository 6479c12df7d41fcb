import Stencil.Number.Reader
import Stencil.Text.Letter
import Stencil.Text.Literal
import Stencil.Value.Compare
import Stencil.Value.Path

/-! Tokens of expressions and how they are read from text. -/
namespace Stencil

inductive SyntaxProblem where
  | emptyExpression
  | unterminated
  | unexpectedCharacter (c : Char)
  | unexpectedToken (spelling : String)
  | unexpectedEnd
  | unclosedGroup
  | badFunctionName (name : String)
  | unclosedCall (name : String)
  | emptyFilter
  | badFilterName (name : String)
  | unreadableNumber (fault : ValueFault)
  deriving DecidableEq, Repr

def SyntaxProblem.message : SyntaxProblem → String
  | emptyExpression => "Empty expression"
  | unterminated => "Unterminated string literal"
  | unexpectedCharacter c => "Unexpected character '" ++ String.singleton c ++ "'"
  | unexpectedToken spelling => "Unexpected token '" ++ spelling ++ "'"
  | unexpectedEnd => "Unexpected end of expression"
  | unclosedGroup => "Expected ')' after grouped expression"
  | badFunctionName name => "Invalid function name '" ++ name ++ "'"
  | unclosedCall name => "Expected ',' or ')' in call to '" ++ name ++ "'"
  | emptyFilter => "Empty filter"
  | badFilterName name => "Invalid filter name '" ++ name ++ "'"
  | unreadableNumber fault => fault.message

structure SyntaxFault where
  problem : SyntaxProblem
  place : Nat
  deriving DecidableEq, Repr

/- The fault of a value that is to blame, which is no error of syntax. -/
def SyntaxFault.value? (f : SyntaxFault) : Option ValueFault :=
  match f.problem with
  | .unreadableNumber fault => some fault
  | _ => none

def SyntaxFault.message (f : SyntaxFault) : String :=
  "Parse error at position " ++ toString f.place ++ ": " ++ f.problem.message

inductive Keyword where
  | true_ | false_ | null_
  deriving DecidableEq, Repr

namespace Keyword

def spelling : Keyword → String
  | true_ => "true"
  | false_ => "false"
  | null_ => "null"

def value : Keyword → Value
  | true_ => .bool true
  | false_ => .bool false
  | null_ => .null

def ofSpelling? (s : String) : Option Keyword :=
  [true_, false_, null_].find? (·.spelling == s)

end Keyword

inductive Operator where
  | compare (relation : Relation)
  | and | or | not
  deriving DecidableEq, Repr

def Operator.spelling : Operator → String
  | compare r => r.symbol
  | and => "&&"
  | or => "||"
  | not => "!"

/- A longer operator stands before one that it begins with. -/
def Operator.all : List Operator :=
  [.compare .same, .compare .notSame, .compare .equal, .compare .notEqual, .compare .atLeast,
    .compare .atMost, .and, .or, .compare .greater, .compare .less, .not]

inductive Lexeme where
  | text (s : String)
  | number (digits : String)
  | keyword (k : Keyword)
  | name (path : String)
  | operator (o : Operator)
  | opening | closing | comma
  deriving DecidableEq, Repr

/- The lexeme in messages; a text has lost its quotes. -/
def Lexeme.spelling : Lexeme → String
  | text s => s
  | number digits => digits
  | keyword k => k.spelling
  | name path => path
  | operator o => o.spelling
  | opening => "("
  | closing => ")"
  | comma => ","

namespace Expr

structure Token where
  lexeme : Lexeme
  place : Nat
  deriving DecidableEq, Repr

open Text

/- The length of a number: a minus sign, digits, and a fraction, with no word character and no point
after it. -/
def numberLength? (s : List Char) : Option Nat :=
  let unsigned := match s with
    | '-' :: rest => rest
    | rest => rest
  let whole := unsigned.takeWhile isDecimal
  let rest := unsigned.drop whole.length
  let part := match rest with
    | '.' :: tail => tail.takeWhile isDecimal
    | _ => []
  let rest := if part.isEmpty then rest else rest.drop (part.length + 1)
  if whole.isEmpty || rest.head?.any (fun c => isWord c || c = '.') then none
  else some (s.length - rest.length)

def isNameStart (c : Char) : Bool := isAsciiStart c || c = '$'

def isNameRest (c : Char) : Bool := isWord c || c = '$'

/- How far a dotted path goes on: a dot belongs to it if a part follows. -/
def nameLength : List Char → Nat
  | [] => 0
  | c :: rest =>
    if isNameRest c then nameLength rest + 1
    else if c = '.' && rest.head?.any isNameRest then nameLength rest + 1
    else 0

def operator? (s : List Char) : Option Operator :=
  Operator.all.find? (fun o => o.spelling.toList.isPrefixOf s)

/- The lexeme that begins with `c`, and how many of the characters after `c` it takes. -/
def lexeme? (c : Char) (rest : List Char) : Option (Lexeme × Nat) :=
  let quoted := if isQuote c then closingQuote? c rest else none
  match quoted with
  | some n => some (.text (String.ofList (unescape (rest.take n))), n + 1)
  | none =>
    match numberLength? (c :: rest) with
    | some n => some (.number (String.ofList ((c :: rest).take n)), n - 1)
    | none =>
      match operator? (c :: rest) with
      | some o => some (.operator o, o.spelling.length - 1)
      | none =>
        if c = '(' then some (.opening, 0)
        else if c = ')' then some (.closing, 0)
        else if c = ',' then some (.comma, 0)
        else if isNameStart c then
          let n := nameLength rest
          let path := String.ofList (c :: rest.take n)
          match Keyword.ofSpelling? path with
          | some k => some (.keyword k, n)
          | none => some (.name path, n)
        else none

def scanFrom (place : Nat) (s : List Char) : Except SyntaxFault (List Token) :=
  match s with
  | [] => .ok []
  | c :: rest =>
    if isBlank c then scanFrom (place + 1) rest
    else match lexeme? c rest with
      | some (l, n) =>
        match scanFrom (place + n + 1) (rest.drop n) with
        | .ok tokens => .ok (⟨l, place⟩ :: tokens)
        | .error e => .error e
      | none =>
        .error ⟨if isQuote c then .unterminated else .unexpectedCharacter c, place⟩
termination_by s.length
decreasing_by
  · simp
  · simp only [List.length_drop, List.length_cons]; omega

def scan (text : String) : Except SyntaxFault (List Token) := scanFrom 0 text.toList

/- The value that the digits of a number token stand for: with a point, a binary number. -/
def numberValue (digits : String) : Except ValueFault Value :=
  if digits.toList.contains '.' then .ok (.float ((Reader.real? digits).getD .zero))
  else (Path.readInteger digits).map .int

def isCallName (name : String) : Bool := isWordName name.toList

end Expr
end Stencil
