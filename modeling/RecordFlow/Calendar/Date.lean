/-! # Calendar days

Days of the Gregorian calendar from the year 1 to the year 9999, by month and by week. Day
numbers count from the first of January of the year 1, which has the number 1.
-/
namespace RecordFlow.Calendar

structure Date where
  year : Nat
  month : Nat
  day : Nat
  deriving DecidableEq, Inhabited

def isLeap (year : Nat) : Bool := year % 4 == 0 && (year % 100 != 0 || year % 400 == 0)

def monthLength (year month : Nat) : Nat :=
  if month = 2 then (if isLeap year then 29 else 28)
  else if month = 4 ∨ month = 6 ∨ month = 9 ∨ month = 11 then 30
  else 31

namespace Date

def isValid (d : Date) : Bool :=
  1 ≤ d.year && d.year ≤ 9999 && 1 ≤ d.month && d.month ≤ 12
    && 1 ≤ d.day && d.day ≤ monthLength d.year d.month

def daysBeforeYear (year : Nat) : Nat :=
  (year - 1) * 365 + (year - 1) / 4 - (year - 1) / 100 + (year - 1) / 400

def daysBeforeMonth (year month : Nat) : Nat :=
  ((List.range (month - 1)).map fun m => monthLength year (m + 1)).foldl (· + ·) 0

def number (d : Date) : Nat := daysBeforeYear d.year + daysBeforeMonth d.year d.month + d.day

def inYear (year : Nat) : (month left dayOfYear : Nat) → Nat × Nat
  | month, 0, rest => (month, rest + 1)
  | month, left + 1, rest =>
    let size := monthLength year month
    if rest < size then (month, rest + 1) else inYear year (month + 1) left (rest - size)

/-- The day with a number. Cycles of 400, 100, 4 and 1 years are taken off in turn; the last day
of a cycle of leap years stays with its last year. -/
def ofNumber (n : Nat) : Date :=
  let n := n - 1
  let n400 := n / 146097
  let r := n % 146097
  let n100 := min (r / 36524) 3
  let r := r - n100 * 36524
  let n4 := r / 1461
  let r := r % 1461
  let n1 := min (r / 365) 3
  let r := r - n1 * 365
  let year := n400 * 400 + n100 * 100 + n4 * 4 + n1 + 1
  let (month, day) := inYear year 1 11 r
  ⟨year, month, day⟩

/-- The day of the week, Monday being 0. -/
def weekday (d : Date) : Nat := (d.number + 6) % 7

/-- The number of the Monday of the first week, the one that holds the first Thursday. It may lie
in the year before. -/
def firstMonday (year : Nat) : Int :=
  let first : Date := ⟨year, 1, 1⟩
  let start : Int := (first.number : Int) - first.weekday
  if first.weekday ≤ 3 then start else start + 7

/-- A year has 53 weeks if it starts on a Thursday, or is a leap year that starts on a Wednesday. -/
def weeksIn (year : Nat) : Nat :=
  let first := weekday ⟨year, 1, 1⟩
  if first = 3 ∨ (first = 2 ∧ isLeap year = true) then 53 else 52

/-- The day given by year, week and day of the week, Monday being 1. -/
def ofWeek? (year week day : Nat) : Option Date :=
  if 1 ≤ year ∧ year ≤ 9999 ∧ 1 ≤ week ∧ week ≤ weeksIn year ∧
      1 ≤ day ∧ day ≤ 7 then
    let d := ofNumber (firstMonday year + (week - 1) * 7 + (day - 1)).toNat
    if d.isValid then some d else none
  else none

def ofMonth? (year month day : Nat) : Option Date :=
  if isValid ⟨year, month, day⟩ then some ⟨year, month, day⟩ else none

end Date

def padded (width n : Nat) : String :=
  let digits := Nat.toDigits 10 n
  String.ofList (List.replicate (width - digits.length) '0' ++ digits)

def Date.text (d : Date) : String :=
  padded 4 d.year ++ "-" ++ padded 2 d.month ++ "-" ++ padded 2 d.day

example : Date.ofNumber 738000 = ⟨2021, 7, 29⟩ ∧ Date.number ⟨2021, 7, 29⟩ = 738000 := by
  decide
example : Date.ofWeek? 2026 1 1 = some ⟨2025, 12, 29⟩ := by decide

end RecordFlow.Calendar
