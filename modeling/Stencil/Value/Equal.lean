import Stencil.Value

/-! Equality of values: numbers and truth values by value, sequences of one kind by their elements,
mappings by their keys whatever the order, moments as instants. A NaN equals itself here, since it may
be an element, a key or the value of an entry; only as an operand of a comparison it equals nothing. -/
namespace Stencil.Value

/- A truth value counts as 0 or 1. -/
def integer? : Value → Option Int
  | .bool b => some (if b then 1 else 0)
  | .int n => some n
  | _ => none

def equalScalars (a b : Value) : Bool :=
  match a, b with
  | .null, .null | .missing, .missing => true
  | .str s, .str t => s == t
  | .date d, .date e => d == e
  | .moment m, .moment n => m.same n
  | .time t, .time u => t.same u
  | .callable c, .callable d => c == d
  | .float x, .float y => x.alike y
  | .float x, b => (b.integer?.map (fun n => Binary64.sameInt n x)).getD false
  | a, .float y => (a.integer?.map (fun n => Binary64.sameInt n y)).getD false
  | a, b => (match a.integer?, b.integer? with
    | some m, some n => m == n
    | _, _ => false)

mutual

def equal (a b : Value) : Bool :=
  match a, b with
  | .list xs, .list ys => equalItems xs ys
  | .tuple xs, .tuple ys => equalItems xs ys
  | .set xs, .set ys => xs.length == ys.length && itemsWithin xs ys
  | .map xs, .map ys => xs.length == ys.length && entriesWithin xs ys
  | a, b => equalScalars a b
termination_by structural a

def equalItems (xs ys : List Value) : Bool :=
  match xs, ys with
  | [], [] => true
  | x :: xs, y :: ys => equal x y && equalItems xs ys
  | _, _ => false
termination_by structural xs

def itemsWithin (xs ys : List Value) : Bool :=
  match xs with
  | [] => true
  | x :: xs => ys.any (fun y => equal x y) && itemsWithin xs ys
termination_by structural xs

def entriesWithin (xs ys : List (Value × Value)) : Bool :=
  match xs with
  | [] => true
  | (k, v) :: xs =>
    ys.any (fun e => equal k e.1 && equal v e.2) && entriesWithin xs ys
termination_by structural xs

end

theorem isText_iff {v : Value} {key : String} : v.isText key = true ↔ v = .str key := by
  cases v <;> simp [isText]

theorem equal_str (v : Value) (key : String) : equal v (.str key) = v.isText key := by
  cases v <;> rfl

end Stencil.Value

namespace Stencil.Entries

open Value (equal)

def get? (entries : Entries) (key : String) : Option Value :=
  (entries.find? (fun e => e.1.isText key)).map (·.2)

/- Puts a value under a key: in the place of an equal key, or at the end. -/
def put (entries : Entries) (key value : Value) : Entries :=
  if entries.any (fun e => equal e.1 key) then
    entries.map (fun e => if equal e.1 key then (e.1, value) else e)
  else entries ++ [(key, value)]

def ofList (pairs : List (Value × Value)) : Entries :=
  pairs.foldl (fun es p => es.put p.1 p.2) []

def ofTexts (pairs : List (String × Value)) : Entries := pairs.map (fun p => (.str p.1, p.2))

theorem get?_nil (key : String) : get? [] key = none := rfl

theorem get?_cons (e : Value × Value) (es : Entries) (key : String) :
    get? (e :: es) key = if e.1.isText key then some e.2 else get? es key := by
  rw [get?, get?, List.find?_cons]
  split <;> simp [*]

theorem get?_append (es fs : Entries) (key : String) :
    get? (es ++ fs) key = (get? es key).or (get? fs key) := by
  rw [get?, List.find?_append, Option.map_or]
  rfl

theorem isSome_get? (es : Entries) (key : String) : (es.get? key).isSome = es.any (·.1.isText key) := by
  rw [Bool.eq_iff_iff, get?, Option.isSome_map, List.find?_isSome, List.any_eq_true]

theorem get?_replaced (es : Entries) (key other : String) (value : Value) :
    get? (es.map fun e => if e.1.isText key then (e.1, value) else e) other =
      if other = key then (es.get? key).map (fun _ => value) else es.get? other := by
  induction es with
  | nil => simp [get?]
  | cons e es ih =>
    rw [List.map_cons, get?_cons, get?_cons, get?_cons, ih]
    cases present : e.1.isText key with
    | true =>
      by_cases same : other = key <;> simp [Value.isText_iff.mp present, Value.isText, same, Ne.symm]
    | false =>
      by_cases same : other = key <;> simp [same, present]

theorem get?_put (entries : Entries) (key other : String) (value : Value) :
    (entries.put (.str key) value).get? other = if other = key then some value else entries.get? other := by
  simp only [put, Value.equal_str, ← isSome_get?]
  cases found : entries.get? key with
  | some v => simp [get?_replaced, found]
  | none =>
    rw [if_neg (by simp), get?_append, get?_cons, get?_nil]
    by_cases same : other = key <;> simp [same, found, Value.isText, Ne.symm]

end Stencil.Entries
