import RecordFlow.Action.Basic
import RecordFlow.Calendar.Reading
import RecordFlow.Failure

/-! # When a delay ends

A delay runs from now, or from the time that a field of the record holds. In the second case the
result stays on the clock of that field.
-/
namespace RecordFlow
open Calendar

def timely {α : Type} : Except OutOfRange α → Except Failure α
  | .ok a => .ok a
  | .error cause => .error (.time cause)

def Value.moment? : Value → Option Moment
  | .str s => Moment.read? s
  | _ => none

namespace Delay

def anchor (d : Delay) (context : Value) : Except Failure Moment :=
  match context.fieldValue (d.field.getD "") with
  | .error cause => .error (.numeral cause)
  | .ok v => match v.moment? with
    | some m => .ok m
    | none => .error (.misconfigured (.delayField d.field))

def due (d : Delay) (now : Moment) (context : Value) : Except Failure Moment := do
  let span ← timely (seconds? d.totalSeconds)
  let start ← if d.isRelative then d.anchor context else .ok now
  timely (start.add? span)

end Delay

end RecordFlow
