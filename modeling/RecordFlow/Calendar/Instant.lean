import RecordFlow.Calendar.Date
import RecordFlow.Number.Double

/-! # Instants, offsets and spans

An instant counts microseconds from the start of 1970 on the clock it is read from. Spans are
limited to 999999999 days and instants to the years 1 to 9999; what goes beyond is a cause of
failure of its own.
-/
namespace RecordFlow.Calendar

structure Instant where
  micros : Int
  deriving DecidableEq, Inhabited

/-- A time on a clock that is `offset` microseconds ahead of the universal one. -/
structure Moment where
  wall : Instant
  offset : Int
  deriving DecidableEq, Inhabited

inductive OutOfRange where
  | dayCount
  | spanOfDays (days : Int)
  | date
  | conversion
  | infinity
  | emptyPeriod
  deriving DecidableEq, Inhabited

def OutOfRange.message : OutOfRange → String
  | .dayCount => "Python int too large to convert to C int"
  | .spanOfDays days => s!"days={days}; must have magnitude <= 999999999"
  | .date => "date value out of range"
  | .conversion => "int too large to convert to float"
  | .infinity => "cannot convert float infinity to integer"
  | .emptyPeriod => "float floor division by zero"

def microsPerSecond : Int := 1000000

def microsPerDay : Int := 86400 * microsPerSecond

def epochDay : Int := 719163

/-- A span of microseconds, if its days can be counted. -/
def span? (micros : Int) : Except OutOfRange Int :=
  let days := micros.fdiv microsPerDay
  if days < -2147483648 ∨ 2147483647 < days then .error .dayCount
  else if days < -999999999 ∨ 999999999 < days then .error (.spanOfDays days)
  else .ok micros

def seconds? (n : Int) : Except OutOfRange Int := span? (n * microsPerSecond)

namespace Instant

def dayNumber (t : Instant) : Int := t.micros.fdiv microsPerDay + epochDay

def date (t : Instant) : Date := Date.ofNumber t.dayNumber.toNat

def timeOfDay (t : Instant) : Nat := (t.micros.fmod microsPerDay).toNat

def inRange (t : Instant) : Bool := 1 ≤ t.dayNumber && t.dayNumber ≤ 3652059

def add (t : Instant) (micros : Int) : Instant := ⟨t.micros + micros⟩

def add? (t : Instant) (micros : Int) : Except OutOfRange Instant :=
  if (t.add micros).inRange then .ok (t.add micros) else .error .date

def addSeconds? (t : Instant) (n : Int) : Except OutOfRange Instant :=
  seconds? n >>= t.add?

def ofDate (d : Date) (micros : Nat) : Instant :=
  ⟨((d.number : Int) - epochDay) * microsPerDay + micros⟩

instance : LE Instant := ⟨fun a b => a.micros ≤ b.micros⟩
instance : LT Instant := ⟨fun a b => a.micros < b.micros⟩
instance (a b : Instant) : Decidable (a ≤ b) :=
  inferInstanceAs (Decidable (a.micros ≤ b.micros))
instance (a b : Instant) : Decidable (a < b) := inferInstanceAs (Decidable (a.micros < b.micros))

end Instant

/-- Hours, minutes and seconds, with microseconds only if there are any. -/
def clockText (micros : Nat) : String :=
  let s := micros / 1000000
  padded 2 (s / 3600) ++ ":" ++ padded 2 (s / 60 % 60) ++ ":" ++ padded 2 (s % 60)
    ++ (if micros % 1000000 = 0 then "" else "." ++ padded 6 (micros % 1000000))

def offsetText (offset : Int) : String :=
  let micros := offset.natAbs
  let s := micros / 1000000
  (if offset < 0 then "-" else "+") ++ padded 2 (s / 3600) ++ ":" ++ padded 2 (s / 60 % 60)
    ++ (if micros % 60000000 = 0 then "" else ":" ++ padded 2 (s % 60))
    ++ (if micros % 1000000 = 0 then "" else "." ++ padded 6 (micros % 1000000))

def Moment.text (m : Moment) : String :=
  m.wall.date.text ++ "T" ++ clockText m.wall.timeOfDay ++ offsetText m.offset

def Instant.moment (t : Instant) : Moment := ⟨t, 0⟩

def Instant.text (t : Instant) : String := t.moment.text

namespace Moment

def universal (m : Moment) : Instant := m.wall.add (-m.offset)

def add (m : Moment) (micros : Int) : Moment := { m with wall := m.wall.add micros }

def add? (m : Moment) (micros : Int) : Except OutOfRange Moment := do
  return { m with wall := ← m.wall.add? micros }

def addSeconds? (m : Moment) (n : Int) : Except OutOfRange Moment := seconds? n >>= m.add?

end Moment

/-! ## Times as doubles

Spans that are given as doubles, and periods that are counted by dividing doubles. A time far from
1970 is rounded before it is divided.
-/

def secondsOf? (d : Double) : Except OutOfRange Int :=
  match d.millionths? with
  | some micros => span? micros
  | none => .error .infinity

def Instant.seconds (t : Instant) : Double :=
  .nearest (decide (t.micros < 0)) t.micros.natAbs 1000000

/-- How many whole periods of so many seconds have passed since 1970. An empty period cannot be
counted. -/
def Instant.period? (t : Instant) (seconds : Int) : Except OutOfRange Int :=
  if seconds = 0 then .error .emptyPeriod else
  match Double.ofInt? seconds with
  | some d => .ok (t.seconds.floorQuotient d)
  | none => .error .conversion

example : (Instant.period? ⟨-1500000⟩ 60).toOption = some (-1) := by decide
example : (Instant.period? ⟨0⟩ 0).toOption = none := by decide

end RecordFlow.Calendar
