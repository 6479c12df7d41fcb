import Stencil.Value.Equal
import Stencil.Value.Fault

/-! The order of keys in messages: numbers by value, texts by code points, dates, moments and times by
the calendar, tuples by the first place where they differ. Keys of different sorts have no order. -/
namespace Stencil.Value

def rational? : Value → Option Rat
  | .float x => x.toRat?
  | v => v.integer?.map (fun n => (n : Rat))

def binary? : Value → Option Binary64
  | .float x => some x
  | v => v.integer?.map (fun n => .ofRatio (n < 0) n.natAbs 1)

def belowNumbers? (a b : Value) : Option Bool :=
  match a.rational?, b.rational? with
  | some x, some y => some (x < y)
  | _, _ => match a.binary?, b.binary? with
    | some x, some y => some (x.lt y)
    | _, _ => none

/- Whether `a` is below `b`, for values that hold no others. Times have an order if both or neither is
tied to universal time; a date and a moment have none. -/
def belowScalars (a b : Value) : Except ValueFault Bool :=
  match a, b with
  | .str s, .str t => .ok (s < t)
  | .date d, .date e => .ok (d.before e)
  | .moment m, .moment n =>
    if m.time.comparable n.time then .ok (m.before n) else .error (.mixedOffsets "datetimes")
  | .time t, .time u => if t.comparable u then .ok (t.before u) else .error (.mixedOffsets "times")
  | .date d, .moment m | .moment m, .date d =>
    .error (.incomparable (moment m).fullTypeWord (date d).fullTypeWord)
  | a, b => match belowNumbers? a b with
    | some b => .ok b
    | none => .error (.unordered a.fullTypeWord b.fullTypeWord)

mutual

def isBelow (a b : Value) : Except ValueFault Bool :=
  match a, b with
  | .tuple xs, .tuple ys => belowItems xs ys
  | a, b => belowScalars a b
termination_by structural a

def belowItems (xs ys : List Value) : Except ValueFault Bool :=
  match xs, ys with
  | _, [] => .ok false
  | [], _ :: _ => .ok true
  | x :: xs, y :: ys => if equal x y then belowItems xs ys else isBelow x y
termination_by structural xs

end

/- Puts a key behind the keys that are not above it. -/
def insertKey (k : Value) : List Value → Except ValueFault (List Value)
  | [] => .ok [k]
  | x :: xs => do
    if ← isBelow k x then return k :: x :: xs
    else return x :: (← insertKey k xs)

def sortKeys (keys : List Value) : Except ValueFault (List Value) :=
  keys.foldlM (fun sorted k => insertKey k sorted) []

end Stencil.Value
