/-
# Time.Date — days of the Gregorian calendar

The calendar is extended backwards without a break, with a year zero, and covers the years -262143 to
262142. A `Date` is always a day of that calendar: its fields cannot hold a thirtieth of February.
`Date.next?` and `Date.previous?` fail only at the two ends of the calendar.
-/

namespace LanguageGraph

set_option autoImplicit false

/-- Every fourth year is a leap year, except centuries that 400 does not divide. -/
def isLeapYear (year : Int) : Bool :=
  year % 4 = 0 && (year % 100 ≠ 0 || year % 400 = 0)

/-- How many days a month has; a month outside 1 to 12 has none. -/
def daysInMonth (year : Int) (month : Nat) : Nat :=
  if month = 2 then (if isLeapYear year then 29 else 28)
  else if month ∈ [4, 6, 9, 11] then 30
  else if 1 ≤ month ∧ month ≤ 12 then 31
  else 0

structure Date where
  year : Int
  month : Nat
  day : Nat
  year_bounds : -262143 ≤ year ∧ year ≤ 262142
  day_bounds : 1 ≤ day ∧ day ≤ daysInMonth year month
deriving DecidableEq

namespace Date

/-- The day with a year, a month and a day of the month, when the calendar has it. -/
def of? (year : Int) (month day : Nat) : Option Date :=
  if bounds : (-262143 ≤ year ∧ year ≤ 262142) ∧ 1 ≤ day ∧ day ≤ daysInMonth year month then
    some ⟨year, month, day, bounds.1, bounds.2⟩
  else none

theorem of?_self (date : Date) : of? date.year date.month date.day = some date := by
  simp [of?, date.year_bounds, date.day_bounds]

def next? (date : Date) : Option Date :=
  if date.day < daysInMonth date.year date.month then of? date.year date.month (date.day + 1)
  else if date.month < 12 then of? date.year (date.month + 1) 1
  else of? (date.year + 1) 1 1

def previous? (date : Date) : Option Date :=
  if 1 < date.day then of? date.year date.month (date.day - 1)
  else if 1 < date.month then
    of? date.year (date.month - 1) (daysInMonth date.year (date.month - 1))
  else of? (date.year - 1) 12 31

end Date

end LanguageGraph
