import Stencil.Calendar.Fault
import Stencil.Text.Case
import Stencil.Value.Path
import Stencil.Yaml.Scalar

/-! What scalars stand for: the tag that a plain one has by its spelling, and the value that a text has
under a tag. -/
namespace Stencil.Yaml

inductive Tag where
  | null | bool | int | float | str | timestamp | seq | map | set
  | merge
  /- An equals sign, which is a text as a key and nothing otherwise. -/
  | equals
  | unknown
  deriving DecidableEq, Repr

namespace Tag

def stem : String := "tag:yaml.org,2002:"

def ofName (name : String) : Tag :=
  ([("null", null), ("bool", bool), ("int", int), ("float", float), ("str", str),
    ("timestamp", timestamp), ("seq", seq), ("map", map), ("set", set), ("merge", merge),
    ("value", equals)].find? (fun p => stem ++ p.1 == name)).elim unknown (·.2)

end Tag

/-! ## Spellings -/

def isSign (c : Char) : Bool := c = '+' || c = '-'

def isGrouped (c : Char) : Bool := c.isDigit || c = '_'

def ungrouped (s : List Char) : List Char := s.filter (· != '_')

def unsigned (s : List Char) : List Char := if s.head?.any isSign then s.drop 1 else s

def based (s : List Char) : Nat × List Char :=
  match s with
  | '0' :: 'b' :: rest => (2, rest)
  | '0' :: 'o' :: rest => (8, rest)
  | '0' :: 'x' :: rest => (16, rest)
  | rest => (10, rest)

def isDigitOf (base : Nat) (c : Char) : Bool := c = '_' || (digitsValue? base [c]).isSome

def spellsInt (s : List Char) : Bool :=
  let (base, digits) := based (unsigned s)
  s.head?.any (fun c => isSign c || c.isDigit) && !digits.isEmpty && digits.all (isDigitOf base)

/- An exponent, which has to have a sign if `signed` is set. -/
def isExponent (signed : Bool) : List Char → Bool
  | c :: rest =>
    let digits := unsigned rest
    (c = 'e' || c = 'E') && (!signed || rest.head?.any isSign) && !digits.isEmpty &&
      digits.all Char.isDigit
  | [] => false

def spellsFloat (s : List Char) : Bool :=
  let body := unsigned s
  let rest := body.dropWhile isGrouped
  let isWord (words : List String) (s : List Char) : Bool := words.contains (String.ofList s)
  if body.head?.any Char.isDigit then
    match rest with
    | '.' :: tail =>
      let tail := tail.dropWhile isGrouped
      tail.isEmpty || isExponent false tail
    | rest => isExponent false rest
  else
    isWord [".inf", ".Inf", ".INF"] body || isWord [".nan", ".NaN", ".NAN"] s ||
      match body with
      | '.' :: c :: tail =>
        let tail := tail.dropWhile isGrouped
        isGrouped c && (tail.isEmpty || isExponent true tail)
      | _ => false

structure Stamp where
  date : Date
  time : Option (Nat × Nat × Nat × List Char)
  offset : Option Int
  deriving DecidableEq, Repr

namespace Stamp

def field? (least most : Nat) (s : List Char) : Option (Nat × List Char) :=
  let digits := (s.take most).takeWhile Char.isDigit
  if digits.length < least then none else some (Reader.natOf digits, s.drop digits.length)

def next? (c : Char) (least : Nat) (s : List Char) : Option (Nat × List Char) :=
  if s.head? = some c then field? least 2 (s.drop 1) else none

def offset? (s : List Char) : Option (Option Int) :=
  match s.dropWhile isBlank with
  | [] => if s.isEmpty then some none else none
  | ['Z'] => some (some 0)
  | c :: rest =>
    if !isSign c then none
    else do
      let (hour, rest) ← field? 1 2 rest
      let (minute, rest) ← if rest.isEmpty then some (0, []) else next? ':' 2 rest
      let total : Int := (hour * 60 + minute : Nat)
      if rest.isEmpty then some (some (if c = '-' then -total else total)) else none

def read? (s : List Char) : Option Stamp := do
  let (year, rest) ← field? 4 4 s
  let (month, rest) ← next? '-' 1 rest
  let (day, rest) ← next? '-' 1 rest
  if rest.isEmpty then some ⟨⟨year, month, day⟩, none, none⟩
  else
    let rest ← match rest with
      | c :: rest =>
        if c = 'T' || c = 't' then some rest
        else if isBlank c then some (rest.dropWhile isBlank)
        else none
      | [] => none
    let (hour, rest) ← field? 1 2 rest
    let (minute, rest) ← next? ':' 2 rest
    let (second, rest) ← next? ':' 2 rest
    let (fraction, rest) := match rest with
      | '.' :: rest => (rest.takeWhile Char.isDigit, rest.dropWhile Char.isDigit)
      | rest => ([], rest)
    some ⟨⟨year, month, day⟩, some (hour, minute, second, fraction), ← offset? rest⟩

/- Microseconds of a fraction; the seventh digit rounds, a five upwards. -/
def micros (fraction : List Char) : Nat :=
  let digits := fraction.take 6
  Reader.natOf digits * Nat.pow 10 (6 - digits.length) +
    (if (fraction[6]?).any ('5' ≤ ·) then 1 else 0)

def later (m : Moment) : Except CalendarFault Moment :=
  let seconds := (m.time.hour * 60 + m.time.minute) * 60 + m.time.second + 1
  let time := { m.time with
    hour := seconds / 3600 % 24, minute := seconds / 60 % 60, second := seconds % 60 }
  let date := Date.ofOrdinal (m.date.ordinal + seconds / 86400)
  if date.year > 9999 then .error .tooLate else .ok ⟨date, time⟩

/- The date or the moment of the fields, which have to be in their ranges. A date alone has no time. -/
def value (t : Stamp) : Except CalendarFault Value :=
  match t.time with
  | none => t.date.checked.map .date
  | some (hour, minute, second, fraction) => do
    let offset := t.offset.map (· * 60000000)
    if offset.any (fun n => 86400000000 ≤ n.natAbs) then throw (.offset (offset.getD 0))
    let date ← t.date.checked
    let n := micros fraction
    let time ← TimeOfDay.checked ⟨hour, minute, second, n % 1000000, offset⟩
    if n < 1000000 then return .moment ⟨date, time⟩
    else return .moment (← later ⟨date, time⟩)

end Stamp

def spellsTimestamp (s : List Char) : Bool :=
  (Stamp.read? s).any (fun t => t.time.isSome || s.length == 10)

def Tag.ofPlain (text : String) : Tag :=
  if ["", "~", "null", "Null", "NULL"].contains text then .null
  else if ["true", "True", "TRUE", "false", "False", "FALSE"].contains text then .bool
  else if text == "<<" then .merge
  else if text == "=" then .equals
  else if spellsInt text.toList then .int
  else if spellsFloat text.toList then .float
  else if spellsTimestamp text.toList then .timestamp
  else .str

/-! ## Values -/

def readBool (text : String) : Except ValueFault Value :=
  let word := Text.lowerText text
  if ["true", "yes", "on", "y"].contains word then .ok (.bool true)
  else if ["false", "no", "off", "n"].contains word then .ok (.bool false)
  else .error (.noTruthValue word)

/- Whether a minus sign stands in front, and the rest without low lines; there has to be something. -/
def signed (text : String) : Except ValueFault (Bool × List Char) :=
  match ungrouped text.toList with
  | [] => .error .emptyNumber
  | c :: rest => .ok (c = '-', unsigned (c :: rest))

def readInt (text : String) : Except ValueFault Value := do
  let (negative, digits) ← signed text
  let n ← match based digits with
    | (10, digits) => Path.readInteger (String.ofList digits)
    | (base, digits) =>
      match digitsValue? base digits with
      | some n => .ok (n : Int)
      | none => .error (.notInteger base (String.ofList digits))
  return .int (if negative then -n else n)

def readFloat (text : String) : Except ValueFault Value := do
  let (negative, digits) ← signed (Text.lowerText text)
  let word := String.ofList digits
  if word == ".nan" then return .float (.nan 0)
  let x ← if word == ".inf" then .ok (.infinite false)
    else match Reader.real? word with
      | some x => .ok x
      | none => .error (.notReal word)
  return .float (if negative then x.neg else x)

def Tag.scalar (t : Tag) (text : String) : Except Fault Value :=
  match t with
  | null => .ok .null
  | str => .ok (.str text)
  | bool => (readBool text).mapError .value
  | int => (readInt text).mapError .value
  | float => (readFloat text).mapError .value
  | timestamp => (match Stamp.read? text.toList with
    | some s => (s.value.mapError (.value ∘ .calendar))
    | none => .error .malformed)
  | seq | map | set | merge | equals | unknown => .error .malformed

end Stencil.Yaml
