import Stencil.Number.Binary64

/-! Dates of the proleptic Gregorian calendar, times of day, and moments. -/
namespace Stencil

structure Date where
  year : Nat
  month : Nat
  day : Nat
  deriving DecidableEq, Repr, Inhabited

structure TimeOfDay where
  hour : Nat
  minute : Nat
  second : Nat
  microsecond : Nat
  offset : Option Int
  deriving DecidableEq, Repr, Inhabited

structure Moment where
  date : Date
  time : TimeOfDay
  deriving DecidableEq, Repr, Inhabited

namespace Date

def isLeap (year : Nat) : Bool := year % 4 == 0 && (year % 100 != 0 || year % 400 == 0)

def monthStarts (year : Nat) : List Nat :=
  let leap := if isLeap year then 1 else 0
  [0, 31] ++ [59, 90, 120, 151, 181, 212, 243, 273, 304, 334].map (· + leap)

def daysInMonth (year month : Nat) : Nat :=
  if month = 2 then (if isLeap year then 29 else 28)
  else if month = 4 || month = 6 || month = 9 || month = 11 then 30
  else 31

def valid (d : Date) : Bool :=
  1 ≤ d.year && d.year ≤ 9999 && 1 ≤ d.month && d.month ≤ 12 && 1 ≤ d.day &&
    d.day ≤ daysInMonth d.year d.month

def daysBeforeYear (year : Nat) : Nat :=
  let y := year - 1
  y * 365 + y / 4 - y / 100 + y / 400

def ordinal (d : Date) : Nat :=
  daysBeforeYear d.year + (monthStarts d.year).getD (d.month - 1) 0 + d.day

/- The date with a given number. A cycle is 400 years; a leap day ends each of the shorter ones. -/
def ofOrdinal (ordinal : Nat) : Date :=
  let n := ordinal - 1
  let n400 := n / 146097
  let n := n % 146097
  let n100 := n / 36524
  let n := n % 36524
  let n4 := n / 1461
  let n := n % 1461
  let n1 := n / 365
  let n := n % 365
  let year := n400 * 400 + n100 * 100 + n4 * 4 + n1 + 1
  if n1 = 4 || n100 = 4 then ⟨year - 1, 12, 31⟩
  else
    let starts := (monthStarts year).takeWhile (· ≤ n)
    ⟨year, starts.length, n - starts.getLastD 0 + 1⟩

def firstWeekday (year : Nat) : Nat := daysBeforeYear year % 7

/- The day of an ISO week. A year has a week 53 if it begins on a Thursday, or on a Wednesday and is
a leap year. -/
def ofWeek? (year week day : Nat) : Option Date :=
  let first := firstWeekday year
  let long := first == 3 || (first == 2 && isLeap year)
  if !(1 ≤ year && year ≤ 9999) || !(1 ≤ day && day ≤ 7) || week = 0 || week > 53 ||
      (week = 53 && !long) then none
  else
    -- The week that holds the first Thursday is the first.
    let monday := if first > 3 then daysBeforeYear year + 8 - first else daysBeforeYear year + 1 - first
    some (ofOrdinal (monday + (week - 1) * 7 + (day - 1)))

end Date

namespace Moment

def padded (width n : Nat) : String :=
  let digits := Nat.toDigits 10 n
  String.ofList (List.replicate (width - digits.length) '0' ++ digits)

end Moment

open Moment (padded)

def Date.text (d : Date) : String :=
  padded 4 d.year ++ "-" ++ padded 2 d.month ++ "-" ++ padded 2 d.day

def TimeOfDay.offsetText (offset : Int) : String :=
  let total := offset.natAbs
  let seconds := total / 1000000
  let micros := total % 1000000
  (if offset < 0 then "-" else "+") ++ padded 2 (seconds / 3600) ++ ":" ++
    padded 2 (seconds / 60 % 60) ++
    (if seconds % 60 = 0 && micros = 0 then "" else ":" ++ padded 2 (seconds % 60)) ++
    (if micros = 0 then "" else "." ++ padded 6 micros)

/- A span of microseconds in days, seconds and microseconds, as far as they are not zero. Only the days
may be negative. -/
def TimeOfDay.spanLiteral (span : Int) : String :=
  let rest := Int.fmod span 86400000000
  let fields := [("days", Int.fdiv span 86400000000), ("seconds", Int.fdiv rest 1000000),
    ("microseconds", Int.fmod rest 1000000)]
  "datetime.timedelta(" ++ String.intercalate ", "
    ((fields.filter (·.2 != 0)).map (fun f => f.1 ++ "=" ++ toString f.2)) ++ ")"

def TimeOfDay.text (t : TimeOfDay) : String :=
  padded 2 t.hour ++ ":" ++ padded 2 t.minute ++ ":" ++ padded 2 t.second ++
    (if t.microsecond = 0 then "" else "." ++ padded 6 t.microsecond) ++
    (t.offset.map TimeOfDay.offsetText).getD ""

def TimeOfDay.valid (t : TimeOfDay) : Bool := t.hour < 24 && t.minute < 60 && t.second < 60

def TimeOfDay.midnight : TimeOfDay := ⟨0, 0, 0, 0, none⟩

def TimeOfDay.micros (t : TimeOfDay) : Int :=
  (((t.hour * 60 + t.minute) * 60 + t.second) * 1000000 + t.microsecond : Nat) - t.offset.getD 0

def TimeOfDay.comparable (a b : TimeOfDay) : Bool := a.offset.isSome == b.offset.isSome

/- The place of a time among others. Of an offset the whole seconds count, rounded downwards. -/
def TimeOfDay.rank (t : TimeOfDay) : Int :=
  ({ t with offset := t.offset.map (fun offset => Int.fdiv offset 1000000 * 1000000) }).micros

def TimeOfDay.same (a b : TimeOfDay) : Bool := a.comparable b && a.rank == b.rank

def TimeOfDay.before (a b : TimeOfDay) : Bool := a.rank < b.rank

def Moment.text (m : Moment) (separator : String) : String :=
  m.date.text ++ separator ++ m.time.text

def Moment.micros (m : Moment) : Int := m.date.ordinal * 86400000000 + m.time.micros

def Moment.same (a b : Moment) : Bool := a.time.comparable b.time && a.micros == b.micros

def Moment.before (a b : Moment) : Bool := a.micros < b.micros

def Date.before (a b : Date) : Bool := a.ordinal < b.ordinal

namespace Moment

def epochOrdinal : Nat := 719163

/- A moment that lies whole seconds and microseconds after the epoch. Only the second day of year 1
to the last day of year 9999 are reached. -/
def ofSeconds? (seconds : Int) (micros : Nat) : Option Moment :=
  let day := Int.fdiv seconds 86400 + epochOrdinal
  let rest := (Int.fmod seconds 86400).toNat
  let date := Date.ofOrdinal day.toNat
  if day < 2 || date.year > 9999 then none
  else some ⟨date, ⟨rest / 3600, rest / 60 % 60, rest % 60, micros, none⟩⟩

/- Whole seconds and microseconds of a number of seconds: the fraction is scaled to microseconds as a
binary number and then rounded, a tie going to the even one. -/
def splitSeconds? (x : Binary64) : Option (Int × Nat) := do
  let q ← x.toRat?
  let whole ← x.truncate?
  let fraction := Binary64.ofRat false (q - whole)
  let scaled ← (fraction.mul (Binary64.ofRatio false 1000000 1)).toRat?
  let rounded := Binary64.roundDiv scaled.num.natAbs scaled.den
  if rounded = 0 then some (whole, 0)
  else if scaled < 0 then some (whole - 1, 1000000 - rounded)
  else if rounded ≥ 1000000 then some (whole + 1, rounded - 1000000)
  else some (whole, rounded)

def ofEpoch? (x : Binary64) : Option Moment := do
  let (seconds, micros) ← splitSeconds? x
  ofSeconds? seconds micros

end Moment
end Stencil
