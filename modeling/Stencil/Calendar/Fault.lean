import Stencil.Calendar.Moment

/-! Fields that make no date and no time, and offsets that are too great. -/
namespace Stencil

inductive CalendarFault where
  | year (year : Nat)
  | month
  | day
  | hour
  | minute
  | second
  | offset (offset : Int)
  | tooLate
  deriving DecidableEq, Repr

namespace CalendarFault

def message : CalendarFault → String
  | year y => "year " ++ toString y ++ " is out of range"
  | month => "month must be in 1..12"
  | day => "day is out of range for month"
  | hour => "hour must be in 0..23"
  | minute => "minute must be in 0..59"
  | second => "second must be in 0..59"
  | offset n => "offset must be a timedelta strictly between -timedelta(hours=24) and " ++
      "timedelta(hours=24), not " ++ TimeOfDay.spanLiteral n ++ "."
  | tooLate => "date value out of range"

end CalendarFault

def Date.checked (d : Date) : Except CalendarFault Date :=
  if !(1 ≤ d.year && d.year ≤ 9999) then .error (.year d.year)
  else if !(1 ≤ d.month && d.month ≤ 12) then .error .month
  else if d.valid then .ok d
  else .error .day

def TimeOfDay.checked (t : TimeOfDay) : Except CalendarFault TimeOfDay :=
  if !(t.hour < 24) then .error .hour
  else if !(t.minute < 60) then .error .minute
  else if t.valid then .ok t
  else .error .second

theorem Date.valid_of_checked {d e : Date} (h : d.checked = .ok e) : e = d ∧ d.valid = true := by
  unfold checked at h
  split at h
  · cases h
  · split at h
    · cases h
    · split at h
      · exact ⟨(Except.ok.inj h).symm, by assumption⟩
      · cases h

end Stencil
