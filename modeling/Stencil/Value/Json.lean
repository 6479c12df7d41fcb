import Stencil.Value.Fault
import Stencil.Value.Literal

/-! Values as JSON text. -/
namespace Stencil.Value

structure JsonStyle where
  comma : String
  colon : String
  indent : Option Nat

def JsonStyle.compact : JsonStyle := ⟨",", ":", none⟩

def JsonStyle.indented (width : Nat) : JsonStyle := ⟨",", ": ", some width⟩

def JsonStyle.spaced : JsonStyle := ⟨", ", ": ", none⟩

/- The items between brackets. An empty list has no line breaks. -/
def JsonStyle.enclose (s : JsonStyle) (level : Nat) (opening closing : String)
    (items : List String) : String :=
  if items.isEmpty then opening ++ closing
  else match s.indent with
    | none => opening ++ String.intercalate s.comma items ++ closing
    | some width =>
      let line (depth : Nat) := "\n" ++ String.ofList (List.replicate (width * depth) ' ')
      opening ++ line (level + 1) ++ String.intercalate (s.comma ++ line (level + 1)) items ++
        line level ++ closing

def leastUnwritable : Nat := Nat.pow 10 ValueFault.maxDigits

def decimal (n : Int) : Except ValueFault String :=
  if n.natAbs < leastUnwritable then .ok (toString n) else .error .unwritable

def jsonNumber : Binary64 → String
  | .nan _ => "NaN"
  | .infinite s => if s then "-Infinity" else "Infinity"
  | x => x.text

/- A key as the text that JSON needs: scalars other than moments have one. -/
def jsonKey : Value → Except ValueFault String
  | .str s => .ok s
  | .null => .ok "null"
  | .bool b => .ok (if b then "true" else "false")
  | .int n => decimal n
  | .float x => .ok (jsonNumber x)
  | v => .error (.badKey v.typeWord)

def shownBefore (a b : Value) : Bool := decide (a.shown ≤ b.shown)

mutual

def jsonAt (s : JsonStyle) (level : Nat) (v : Value) : Except ValueFault String :=
  match v with
  | .null => .ok "null"
  | .bool b => .ok (if b then "true" else "false")
  | .int n => decimal n
  | .float x => .ok (jsonNumber x)
  | .str t => .ok (Text.jsonString t)
  | .list xs | .tuple xs => do
    return s.enclose level "[" "]" (← jsonItems s (level + 1) xs)
  | .set xs => do
    -- Each element is written before the elements are put in order.
    let pairs := xs.zip (← jsonItems s (level + 1) xs)
    return s.enclose level "[" "]" ((pairs.mergeSort (fun a b => shownBefore a.1 b.1)).map (·.2))
  | .map es => do
    return s.enclose level "\x7b" "\x7d" (← jsonEntries s (level + 1) es)
  | .date d => .ok (Text.jsonString d.text)
  | .moment m => .ok (Text.jsonString (m.text "T"))
  | .time t => .ok (Text.jsonString t.text)
  | .missing => .ok (Text.jsonString (shown .missing))
  | .callable c => .ok (Text.jsonString (shown (.callable c)))
termination_by structural v

def jsonItems (s : JsonStyle) (level : Nat) (xs : List Value) : Except ValueFault (List String) :=
  match xs with
  | [] => .ok []
  | x :: xs => do
    let first ← jsonAt s level x
    let rest ← jsonItems s level xs
    return first :: rest
termination_by structural xs

def jsonEntries (s : JsonStyle) (level : Nat) (es : List (Value × Value)) :
    Except ValueFault (List String) :=
  match es with
  | [] => .ok []
  | (k, v) :: es => do
    let key ← jsonKey k
    let first ← jsonAt s level v
    let rest ← jsonEntries s level es
    return (Text.jsonString key ++ s.colon ++ first) :: rest
termination_by structural es

end

def json (s : JsonStyle) (v : Value) : Except ValueFault String := jsonAt s 0 v

/- The text of a value in output. A whole number has no fraction; null and missing are empty. -/
def text (v : Value) : Except ValueFault String :=
  match v with
  | .null | .missing => .ok ""
  | .str s => .ok s
  | .bool b => .ok (if b then "true" else "false")
  | .int n => decimal n
  | .float x => .ok (if x.isInteger then (x.truncate?.map toString).getD "" else x.text)
  | .date d => .ok d.text
  | .moment m => .ok (m.text "T")
  | .time t => .ok t.text
  | .list _ | .tuple _ | .map _ => v.json .compact
  | .set _ | .callable _ => .ok v.shown

end Stencil.Value
