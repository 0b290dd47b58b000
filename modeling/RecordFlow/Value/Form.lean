import RecordFlow.Calendar.Instant
import RecordFlow.Uuid
import RecordFlow.Value.Basic

/-! # Forms of stored data

How identifiers, days and times are written as values, and how what is not set is left out.
-/
namespace RecordFlow.Value

def opt {α : Type} (encode : α → Value) : Option α → Value
  | some a => encode a
  | none => .null

def uuid (u : Uuid) : Value := .str u.text

def date (d : Calendar.Date) : Value := .str d.text

def instant (t : Calendar.Instant) : Value := .str t.text

def moment (m : Calendar.Moment) : Value := .str m.text

/-- The span that a number of seconds stands for; other values stand for none. -/
def span : Value → Except Calendar.OutOfRange Int
  | .int n => Calendar.seconds? n
  | .double d => Calendar.secondsOf? d
  | _ => .ok 0

def present (fields : Fields) : Value := .obj (fields.filter fun f => !f.2.isNull)

end RecordFlow.Value
