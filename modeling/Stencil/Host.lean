import Stencil.Calendar.Iso
import Stencil.Text.Case
import Stencil.Value.Json
import Stencil.Value.Path
import Stencil.Fault

/-! The built-in filters and functions, and the surroundings that callables and clocks come from. -/
namespace Stencil

/- What the engine is placed in. A host callable is a function of its arguments; the clock is read by
number and tells seconds. -/
structure Host where
  call : String → List Value → Except CallFault Value
  clock : Nat → Binary64
  now : Moment
  uuid : String
  random : Int → Int → Int

namespace Value

def toInteger : Value → Except ValueFault Int
  | .int n => .ok n
  | .bool b => .ok (if b then 1 else 0)
  | .float (.nan _) => .error .integerOfNan
  | .float x => (match x.truncate? with
    | some n => .ok n
    | none => .error .integerOfInfinity)
  | .str s => Path.readInteger s
  | v => .error (.noInteger v.fullTypeWord)

/- The moment that a value stands for: a date at midnight, milliseconds since 1970, or a text in one
of the ISO formats, where a final `Z` is universal time. -/
def moment? : Value → Option Moment
  | .moment m => some m
  | .date d => some ⟨d, .midnight⟩
  | .int n => (Binary64.ofQuotient? n 1000).bind Moment.ofEpoch?
  | .float x => Moment.ofEpoch? (x.divNat 1000)
  | .str s =>
    let text := Text.trim s
    Iso.moment? (if text.endsWith "Z" then (text.dropEnd 1).toString ++ "+00:00" else text)
  | _ => none

end Value

namespace Moment

/- Writes a moment by a pattern of `YYYY`, `MM`, `DD`, `HH`, `mm` and `ss`; all else stands for
itself. -/
def format (m : Moment) : List Char → List Char
  | 'Y' :: 'Y' :: 'Y' :: 'Y' :: rest => (padded 4 m.date.year).toList ++ format m rest
  | 'M' :: 'M' :: rest => (padded 2 m.date.month).toList ++ format m rest
  | 'D' :: 'D' :: rest => (padded 2 m.date.day).toList ++ format m rest
  | 'H' :: 'H' :: rest => (padded 2 m.time.hour).toList ++ format m rest
  | 'm' :: 'm' :: rest => (padded 2 m.time.minute).toList ++ format m rest
  | 's' :: 's' :: rest => (padded 2 m.time.second).toList ++ format m rest
  | c :: rest => c :: format m rest
  | [] => []

def defaultFormat : String := "YYYY-MM-DD"

end Moment

namespace Builtin

def name : Builtin → String
  | upper => "upper"
  | lower => "lower"
  | capitalize => "capitalize"
  | truncate => "truncate"
  | default => "default"
  | json => "json"
  | date => "date"
  | now => "now"
  | random => "random"
  | uuid => "uuid"

def longName : Builtin → String
  | json => "json_filter"
  | date => "date_filter"
  | random => "random_int"
  | uuid => "uuid4"
  | b => b.name

def arity : Builtin → Nat × Nat
  | upper | lower | capitalize | json => (1, 1)
  | truncate | default | date => (1, 2)
  | now | uuid => (0, 0)
  | random => (0, 2)

def filters : List Builtin := [upper, lower, capitalize, truncate, default, json, date]

def functions : List Builtin := [now, random, uuid]

def capitalized (s : String) : String :=
  match s.toList with
  | [] => ""
  | c :: rest => String.ofList (Text.upperChar c ++ rest)

/- At most `limit` characters, with an ellipsis if any were dropped. A negative limit counts from the
end. -/
def truncated (s : String) (limit : Int) : String :=
  let chars := s.toList
  if chars.length ≤ limit then s
  else
    let keep := if limit < 0 then chars.length + limit else limit
    String.ofList (chars.take keep.toNat ++ ['.', '.', '.'])

def run (host : Host) (b : Builtin) (args : List Value) : Except ValueFault Value := do
  let arg (i : Nat) (absent : Value) := args.getD i absent
  let value := arg 0 .null
  match b with
  | upper => return .str (Text.upperText (← value.text))
  | lower => return .str (Text.lowerText (← value.text))
  | capitalize => return .str (capitalized (← value.text))
  | truncate =>
    let text ← value.text
    let limit ← (arg 1 (.int 50)).toInteger
    return .str (truncated text limit)
  | default =>
    match value with
    | .null | .missing | .str "" => return arg 1 (.str "")
    | v => return v
  | json => return .str (← value.plain.json (.indented 2))
  | date =>
    match value.moment? with
    | none => return .str (← value.text)
    | some m =>
      let pattern ← (arg 1 (.str Moment.defaultFormat)).text
      let pattern := if pattern = "" then Moment.defaultFormat else pattern
      return .str (String.ofList (m.format pattern.toList))
  | now => return .moment host.now
  | random =>
    let low ← (arg 0 (.int 0)).toInteger
    let high ← (arg 1 (.int 100)).toInteger
    return .int (host.random (min low high) (max low high))
  | uuid => return .str host.uuid

def apply (host : Host) (b : Builtin) (args : List Value) : Except ValueFault Value :=
  let (least, most) := b.arity
  if args.length > most then .error (.tooManyArguments b.longName least most args.length)
  else if args.length < least then .error (.missingArgument b.longName "value")
  else b.run host args

end Builtin

def Host.apply (host : Host) (c : Callable) (args : List Value) : Except CallFault Value :=
  match c with
  | .builtin b => (b.apply host args).mapError .value
  | .host name => host.call name args

end Stencil
