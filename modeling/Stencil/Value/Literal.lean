import Stencil.Value
import Stencil.Text.Quoted
import Stencil.Number.Layout

/-! Values as they are shown in messages: texts quoted, brackets for lists, parentheses for tuples,
braces for mappings. -/
namespace Stencil.Value

def commaJoined (parts : List String) : String := String.intercalate ", " parts

/- The offset of a time as it is shown: universal time has a name of its own. -/
def zoneLiteral (offset : Int) : String :=
  if offset = 0 then "datetime.timezone.utc"
  else "datetime.timezone(" ++ TimeOfDay.spanLiteral offset ++ ")"

def timeFields (t : TimeOfDay) : List String :=
  [toString t.hour, toString t.minute] ++
    (if t.second = 0 && t.microsecond = 0 then [] else [toString t.second]) ++
    (if t.microsecond = 0 then [] else [toString t.microsecond]) ++
    (match t.offset with
      | none => []
      | some offset => ["tzinfo=" ++ zoneLiteral offset])

def dateFields (d : Date) : List String := [toString d.year, toString d.month, toString d.day]

mutual

def literal (v : Value) : String :=
  match v with
  | .null => "None"
  | .missing => "MISSING"
  | .bool b => if b then "True" else "False"
  | .int n => toString n
  | .float x => x.text
  | .str s => Text.quoted s
  | .list xs => "[" ++ commaJoined (literalItems xs) ++ "]"
  | .tuple [x] => "(" ++ literal x ++ ",)"
  | .tuple xs => "(" ++ commaJoined (literalItems xs) ++ ")"
  | .map es => "\x7b" ++ commaJoined (literalEntries es) ++ "\x7d"
  | .date d => "datetime.date(" ++ commaJoined (dateFields d) ++ ")"
  | .moment m => "datetime.datetime(" ++ commaJoined (dateFields m.date ++ timeFields m.time) ++ ")"
  | .time t => "datetime.time(" ++ commaJoined (timeFields t) ++ ")"
  | .set [] => "set()"
  | .set xs => "\x7b" ++ commaJoined (literalItems xs) ++ "\x7d"
  | .callable _ => "<function>"
termination_by structural v

def literalItems (xs : List Value) : List String :=
  match xs with
  | [] => []
  | x :: xs => literal x :: literalItems xs
termination_by structural xs

def literalEntries (es : List (Value × Value)) : List String :=
  match es with
  | [] => []
  | (k, v) :: es => (literal k ++ ": " ++ literal v) :: literalEntries es
termination_by structural es

end

/- A value on its own in a message: texts and moments plainly, the rest as literals. -/
def shown : Value → String
  | .str s => s
  | .date d => d.text
  | .moment m => m.text " "
  | .time t => t.text
  | v => v.literal

end Stencil.Value
