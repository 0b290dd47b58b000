import RecordFlow.Number.Whole
import RecordFlow.Text.Part
import RecordFlow.Value.Basic

/-! # Paths

A path is a text of steps with points between them. A step into an object is a key, a step into a
list is a position written in digits. A step of digit characters that write no number is an error
of its own.
-/
namespace RecordFlow

inductive Lookup where
  | found (v : Value)
  | missing
  | unreadable (cause : BadNumeral)
  deriving Inhabited

namespace Lookup

def value? : Lookup → Except BadNumeral Value
  | .found v => .ok v
  | .missing => .ok .null
  | .unreadable cause => .error cause

end Lookup

namespace Value

def step (v : Value) (segment : String) : Lookup :=
  match v with
  | .obj fields => match Fields.get? fields segment with
    | some w => .found w
    | none => .missing
  | .list items =>
    if Text.allDigits segment then
      match Number.readWhole 10 segment with
      | .ok i => match items[i.toNat]? with
        | some w => .found w
        | none => .missing
      | .error cause => .unreadable cause
    else .missing
  | _ => .missing

def follow (v : Value) : List String → Lookup
  | [] => .found v
  | segment :: rest =>
    match v.step segment with
    | .found w => follow w rest
    | other => other

def resolve (v : Value) (path : String) : Lookup := v.follow ((Text.splitAll (· = '.') path.toList).map String.ofList)

def fieldValue (v : Value) (path : String) : Except BadNumeral Value := (v.resolve path).value?

end Value

end RecordFlow
