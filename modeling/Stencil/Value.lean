import Stencil.Calendar.Moment

/-! The dynamic values that templates read and write. -/
namespace Stencil

inductive Builtin where
  | upper | lower | capitalize | truncate | default | json | date
  | now | random | uuid
  deriving DecidableEq, Repr, Inhabited

inductive Callable where
  | builtin (b : Builtin)
  | host (name : String)
  deriving DecidableEq, Repr, Inhabited

/- `missing` marks what a path does not lead to; it differs from an explicit `null`. A mapping keeps
the order in which its keys were first put. -/
inductive Value where
  | null
  | missing
  | bool (b : Bool)
  | int (n : Int)
  | float (x : Binary64)
  | str (s : String)
  | list (items : List Value)
  | tuple (items : List Value)
  | map (entries : List (Value × Value))
  | date (d : Date)
  | moment (m : Moment)
  | time (t : TimeOfDay)
  | set (items : List Value)
  | callable (c : Callable)
  deriving Repr, Inhabited

abbrev Entries := List (Value × Value)

inductive Kind where
  | null | boolean | number | string | sequence | mapping | other
  deriving DecidableEq, Repr

namespace Value

def kind : Value → Kind
  | .null | .missing => .null
  | .bool _ => .boolean
  | .int _ | .float _ => .number
  | .str _ => .string
  | .list _ | .tuple _ => .sequence
  | .map _ => .mapping
  | .date _ | .moment _ | .time _ | .set _ | .callable _ => .other

def typeWord : Value → String
  | .null => "NoneType"
  | .missing => "_Missing"
  | .bool _ => "bool"
  | .int _ => "int"
  | .float _ => "float"
  | .str _ => "str"
  | .list _ => "list"
  | .tuple _ => "tuple"
  | .map _ => "dict"
  | .date _ => "date"
  | .moment _ => "datetime"
  | .time _ => "time"
  | .set _ => "set"
  | .callable _ => "function"

def fullTypeWord : Value → String
  | .date _ => "datetime.date"
  | .moment _ => "datetime.datetime"
  | .time _ => "datetime.time"
  | v => v.typeWord

mutual

/- The type of a part for which a value can be no key: lists, mappings and sets can change. -/
def changeable? (v : Value) : Option String :=
  match v with
  | .list _ | .map _ | .set _ => some v.typeWord
  | .tuple xs => changeableIn? xs
  | _ => none
termination_by structural v

def changeableIn? (items : List Value) : Option String :=
  match items with
  | [] => none
  | x :: xs => (changeable? x).or (changeableIn? xs)
termination_by structural items

end

def isMissing (v : Value) : Bool := v matches .missing

def isText (key : String) : Value → Bool
  | .str s => s == key
  | _ => false

/- A missing value becomes `null`; callables are given nothing else for it. -/
def plain : Value → Value
  | .missing => .null
  | v => v

def items? : Value → Option (List Value)
  | .list xs | .tuple xs => some xs
  | _ => none

def isSequence (v : Value) : Bool := v.items?.isSome

def isNumber (v : Value) : Bool := v.kind == .number

/- False are null, missing, false, zero, NaN, the empty text and the empty sequence. -/
def isTruthy : Value → Bool
  | .null | .missing => false
  | .bool b => b
  | .int n => n != 0
  | .float x => !x.isNan && !x.isZero
  | .str s => s != ""
  | .list xs | .tuple xs => !xs.isEmpty
  | _ => true

theorem plain_ne_missing (v : Value) : v.plain.isMissing = false := by
  cases v <;> rfl

theorem isTruthy_plain (v : Value) : v.plain.isTruthy = v.isTruthy := by
  cases v <;> rfl

end Value
end Stencil
