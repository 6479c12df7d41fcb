import Stencil.Number.Reader
import Stencil.Value.Equal
import Stencil.Value.Fault

/-! Dotted paths into a tree of values. -/
namespace Stencil.Path

open Text

def segments (path : String) : List String :=
  ((pieces '.' path.toList).filter (!·.isEmpty)).map String.ofList

def root (path : String) : String := String.ofList (cut '.' path.toList).1

/- Digits after any number of minus signs. -/
def looksLikeIndex (segment : String) : Bool :=
  let digits := segment.toList.dropWhile (· == '-')
  !digits.isEmpty && digits.all isDigit

def readInteger (text : String) : Except ValueFault Int :=
  match Reader.integer ValueFault.maxDigits text with
  | .number n => .ok n
  | .tooLong count => .error (.tooManyDigits count)
  | .notNumeric => .error (.notInteger 10 text)

/- An element by its index; a negative one counts from the end. -/
def element (items : List Value) (index : Int) : Value :=
  let position := if index < 0 then index + items.length else index
  if position < 0 then .missing else items.getD position.toNat .missing

/- Whether a value holds a text: as a key, as an element, or as a part of a text. -/
def holds (v : Value) (key : String) : Except ValueFault Bool :=
  match v with
  | .map entries => .ok (Entries.get? entries key).isSome
  | .list items | .tuple items | .set items => .ok (items.any (·.isText key))
  | .str s => .ok (indexOf? key.toList s.toList).isSome
  | v => .error (.notContainer v.fullTypeWord)

def under (v : Value) (key : String) : Except ValueFault Value :=
  match v with
  | .map entries => .ok ((Entries.get? entries key).getD .missing)
  | v => .error (.textIndex v.fullTypeWord)

/- One step down: a key of a mapping or an index of a sequence. -/
def step (v : Value) (segment : String) : Except ValueFault Value :=
  match v with
  | .map entries => .ok ((Entries.get? entries segment).getD .missing)
  | .list items | .tuple items =>
    if looksLikeIndex segment then (readInteger segment).map (element items) else .ok .missing
  | _ => .ok .missing

def walk (v : Value) : List String → Except ValueFault Value
  | [] => .ok v
  | s :: rest => do
    let next ← step v s
    walk next rest

theorem walk_missing (segments : List String) : walk .missing segments = .ok .missing := by
  induction segments with
  | nil => rfl
  | cons s rest ih => exact ih

def resolve (tree : Value) (path : String) : Except ValueFault Value :=
  match segments path with
  | [] => .ok .missing
  | s :: rest => walk tree (s :: rest)

/- Puts a value at the end of a path of keys. What stands on the way and is no mapping gives way to an
empty one. -/
def assign (tree : Entries) (keys : List String) (value : Value) : Entries :=
  match keys with
  | [] => tree
  | [key] => tree.put (.str key) value
  | key :: rest =>
    let inner := match tree.get? key with
      | some (.map entries) => entries
      | _ => []
    tree.put (.str key) (.map (assign inner rest value))

end Stencil.Path
