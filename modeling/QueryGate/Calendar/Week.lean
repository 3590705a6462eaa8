import QueryGate.Calendar

/-!
Days given by a year, a week and a day of the week. Weeks start on Mondays, and the first week of a year is
the one with its first Thursday, so a week's days may belong to the year before or after.
-/
namespace QueryGate.Date

def daysInYear (year : Nat) : Nat := if isLeap year then 366 else 365

def daysBefore (year : Nat) : Nat :=
  let past := year - 1
  365 * past + past / 4 - past / 100 + past / 400

def firstWeekday (year : Nat) : Nat := daysBefore year % 7

def weeksIn (year : Nat) : Nat :=
  if firstWeekday year = 3 ∨ (firstWeekday year = 2 ∧ isLeap year) then 53 else 52

def firstMonday (year : Nat) : Int :=
  if firstWeekday year ≤ 3 then -(firstWeekday year : Int) else 7 - (firstWeekday year : Int)

def inMonths? (year : Nat) : List Nat → Nat → Option Date
  | [], _ => none
  | month :: later, days =>
    if days < daysIn year month then some ⟨year, month, days + 1⟩
    else inMonths? year later (days - daysIn year month)

def ofYearDay? (year : Nat) (days : Int) : Option Date :=
  let months := List.range' 1 12
  if days < 0 then inMonths? (year - 1) months (days + daysInYear (year - 1)).toNat
  else if days < daysInYear year then inMonths? year months days.toNat
  else inMonths? (year + 1) months (days - daysInYear year).toNat

def ofWeek? (year week day : Nat) : Option Date :=
  if 1 ≤ week ∧ week ≤ weeksIn year ∧ 1 ≤ day ∧ day ≤ 7 then
    ofYearDay? year (firstMonday year + (7 * (week - 1) + (day - 1) : Nat))
  else none

end QueryGate.Date
