import Stencil.Calendar.Moment

/-! Reading moments in the formats of ISO 8601: dates with or without hyphens, ISO weeks, any one
character before the time, times with or without colons, fractions, offsets. -/
namespace Stencil.Iso

def digit? (c : Char) : Option Nat := if c.isDigit then some (c.toNat - 48) else none

def digits? : Nat → Nat → List Char → Option (Nat × List Char)
  | 0, n, rest => some (n, rest)
  | _ + 1, _, [] => none
  | count + 1, n, c :: rest => do digits? count (10 * n + (← digit? c)) rest

/- How many characters the date takes. A year is followed by a hyphen, a `W` or a month. An ISO week
without hyphens takes a weekday unless the digits behind it pair up without one. -/
def dateLength (s : List Char) : Nat :=
  let size := s.length
  let at? (i : Nat) (c : Char) := s[i]? == some c
  if size = 7 then 7
  else if at? 4 '-' then
    if at? 5 'W' then
      if at? 8 '-' && !((s[10]?).any Char.isDigit) then 10 else 8
    else 10
  else if at? 4 'W' then
    let stop := 7 + ((s.drop 7).takeWhile Char.isDigit).length
    if stop < 9 then stop else if stop % 2 = 0 then 7 else 8
  else 8

def separator? (hyphens : Bool) (s : List Char) : Option (List Char) :=
  if hyphens then (match s with
    | '-' :: rest => some rest
    | _ => none)
  else some s

def date? (s : List Char) : Option Date := do
  let (year, rest) ← digits? 4 0 s
  let (hyphens, rest) := match rest with
    | '-' :: rest => (true, rest)
    | rest => (false, rest)
  match rest with
  | 'W' :: rest =>
    let (week, rest) ← digits? 2 0 rest
    let day ← match rest with
      | [] => some 1
      | rest => do
        let (day, _) ← digits? 1 0 (← separator? hyphens rest)
        some day
    Date.ofWeek? year week day
  | rest =>
    let (month, rest) ← digits? 2 0 rest
    let (day, rest) ← digits? 2 0 (← separator? hyphens rest)
    if rest.isEmpty then some ⟨year, month, day⟩ else none

structure Fields where
  hour : Nat
  minute : Nat
  second : Nat
  microsecond : Nat
  clean : Bool

/- Up to six digits of a fraction count; more are dropped. -/
def fraction? (s : List Char) : Option (Nat × Bool) := do
  let count := min s.length 6
  let (n, rest) ← digits? count 0 s
  some (n * Nat.pow 10 (6 - count), (rest.dropWhile Char.isDigit).isEmpty)

/- Reads hours, minutes and seconds, as many as there are, and a fraction. `colons` tells whether the
first two fields are parted by a colon; a point or a comma begins the fraction after any field. -/
def fields? (s : List Char) : Option Fields := do
  let (hour, rest) ← digits? 2 0 s
  let colons := rest.head? == some ':'
  let close (minute second : Nat) (rest : List Char) : Option Fields := do
    let (micros, clean) ← fraction? rest
    some ⟨hour, minute, second, micros, clean⟩
  -- What follows a field: the end, one ASCII character too many, the next field, the fraction, or
  -- something misplaced.
  let next (minute second : Nat) (rest : List Char) (more : List Char → Option Fields) :
      Option Fields :=
    match rest with
    | [] => some ⟨hour, minute, second, 0, true⟩
    | [c] => if c.toNat < 128 then some ⟨hour, minute, second, 0, false⟩ else none
    | c :: tail =>
      if colons && c = ':' then more tail
      else if c = '.' || c = ',' then close minute second tail
      else if colons then none
      else more rest
  next 0 0 rest fun rest => do
    let (minute, rest) ← digits? 2 0 rest
    next minute 0 rest fun rest => do
      let (second, rest) ← digits? 2 0 rest
      next minute second rest (close minute second)

def isOffsetMark (c : Char) : Bool := c = '+' || c = '-' || c = 'Z'

/- An offset in microseconds. One of no whole seconds is universal time. -/
def offset? (negative : Bool) (s : List Char) : Option Int := do
  let f ← fields? s
  if !f.clean then none
  else
    let seconds := f.hour * 3600 + f.minute * 60 + f.second
    if seconds = 0 then some 0
    else
      let total : Int := (seconds * 1000000 + f.microsecond : Nat)
      if total < 86400000000 then some (if negative then -total else total) else none

def time? (s : List Char) : Option TimeOfDay := do
  let f ← fields? (s.takeWhile (!isOffsetMark ·))
  let offset ← match s.dropWhile (!isOffsetMark ·) with
    | [] => if f.clean then some none else none
    | ['Z'] => some (some 0)
    | 'Z' :: _ => none
    | c :: rest => (offset? (c = '-') rest).map some
  let t : TimeOfDay := ⟨f.hour, f.minute, f.second, f.microsecond, offset⟩
  if t.valid then some t else none

def moment? (text : String) : Option Moment := do
  let s := text.toList
  if s.length < 7 then none
  else
    let size := dateLength s
    let date ← date? (s.take size)
    let time ← match s.drop size with
      | [] => some .midnight
      | _ :: rest => time? rest
    if date.valid then some ⟨date, time⟩ else none

end Stencil.Iso
