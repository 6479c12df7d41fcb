import Stencil.Calendar.Fault
import Stencil.Text.Quoted
import Stencil.Value

/-! What operations on values refuse, and why. -/
namespace Stencil

inductive ValueFault where
  | notInteger (base : Nat) (text : String)
  | tooManyDigits (count : Nat)
  | unwritable
  | notReal (text : String)
  | noInteger (typeWord : String)
  | integerOfNan
  | integerOfInfinity
  | tooLarge
  | unordered (left right : String)
  | incomparable (left right : String)
  /- One of two moments or times is tied to universal time, the other is not. -/
  | mixedOffsets (sorts : String)
  | calendar (f : CalendarFault)
  | unhashable (typeWord : String)
  | notContainer (typeWord : String)
  | textIndex (typeWord : String)
  | emptyNumber
  | noCharacter (code : Nat)
  | noTruthValue (word : String)
  | unknownField (owner name : String)
  | badKey (typeWord : String)
  | unknownRelation (symbol : String)
  /- A built-in takes `least` to `most` arguments and got `given`. -/
  | tooManyArguments (name : String) (least most given : Nat)
  | missingArgument (name argument : String)
  | negativeTimeout (shown : String)
  | badChunkSize (size : Int)
  | noScope
  | badName (role shown : String)
  | notCallable (role name : String)
  deriving DecidableEq, Repr

inductive FaultFamily where
  | value | type | overflow | index | key
  deriving DecidableEq, Repr

namespace ValueFault

def family : ValueFault → FaultFamily
  | notInteger .. | tooManyDigits _ | unwritable | notReal _ | integerOfNan | unknownRelation _
  | negativeTimeout _ | badChunkSize _ | badName _ _ => .value
  | noInteger _ | badKey _ | unordered .. | incomparable .. | mixedOffsets _ | unhashable _
  | notContainer _ | textIndex _ | unknownField .. | tooManyArguments .. | missingArgument ..
  | notCallable .. => .type
  | integerOfInfinity | tooLarge | calendar .tooLate => .overflow
  | calendar _ => .value
  | noCharacter code => if code < Nat.pow 2 31 then .value else .overflow
  | noScope | emptyNumber => .index
  | noTruthValue _ => .key

def counted (n : Nat) : String :=
  toString n ++ (if n = 1 then " positional argument" else " positional arguments")

def arity (least most : Nat) : String :=
  if least = most then counted most
  else "from " ++ toString least ++ " to " ++ toString most ++ " positional arguments"

def shownLiteral : Nat := 200

def maxDigits : Nat := 4300

def message : ValueFault → String
  | notInteger base text => "invalid literal for int() with base " ++ toString base ++ ": " ++
      String.ofList ((Text.quoted text).toList.take shownLiteral)
  | tooManyDigits count => "Exceeds the limit (" ++ toString maxDigits ++
      " digits) for integer string conversion: value has " ++ toString count ++
      " digits; use sys.set_int_max_str_digits() to increase the limit"
  | unwritable => "Exceeds the limit (" ++ toString maxDigits ++
      " digits) for integer string conversion; use sys.set_int_max_str_digits() to increase the limit"
  | notReal text => "could not convert string to float: " ++ Text.quoted text
  | noInteger word =>
    "int() argument must be a string, a bytes-like object or a real number, not '" ++ word ++ "'"
  | integerOfNan => "cannot convert float NaN to integer"
  | integerOfInfinity => "cannot convert float infinity to integer"
  | tooLarge => "int too large to convert to float"
  | unordered left right =>
    "'<' not supported between instances of '" ++ left ++ "' and '" ++ right ++ "'"
  | incomparable left right => "can't compare " ++ left ++ " to " ++ right
  | mixedOffsets sorts => "can't compare offset-naive and offset-aware " ++ sorts
  | calendar f => f.message
  | unhashable word => "unhashable type: '" ++ word ++ "'"
  | notContainer word => "argument of type '" ++ word ++ "' is not iterable"
  | textIndex "str" => "string indices must be integers, not 'str'"
  | textIndex word =>
    if word = "list" || word = "tuple" then word ++ " indices must be integers or slices, not str"
    else "'" ++ word ++ "' object is not subscriptable"
  | emptyNumber => "string index out of range"
  | noCharacter code => if code < Nat.pow 2 31 then "chr() arg not in range(0x110000)"
      else "Python int too large to convert to C int"
  | noTruthValue word => Text.quoted word
  | unknownField owner name =>
    owner ++ ".__init__() got an unexpected keyword argument '" ++ name ++ "'"
  | badKey word => "keys must be str, int, float, bool or None, not " ++ word
  | unknownRelation symbol => "Unknown comparison operator: " ++ symbol
  | tooManyArguments name least most given =>
    name ++ "() takes " ++ arity least most ++ " but " ++ toString given ++
      (if given = 1 then " was given" else " were given")
  | missingArgument name argument =>
    name ++ "() missing 1 required positional argument: '" ++ argument ++ "'"
  | negativeTimeout shown => "timeout_ms cannot be negative, got " ++ shown
  | badChunkSize size => "chunk_size must be positive, got " ++ toString size
  | noScope => "pop from empty list"
  | badName role shown => "Invalid " ++ role ++ " name: " ++ shown
  | notCallable role name => role ++ " '" ++ name ++ "' must be callable"

end ValueFault
end Stencil
