import RecordFlow.Schema.Issue
import RecordFlow.Value.Basic

/-! # Checked data

The outcome of a check is a result or the list of all issues. Checks of several parts are combined
side by side: the issues of all parts are kept, in order. A rule between parts is checked only when
every part is in order.
-/
namespace RecordFlow.Schema

inductive Checked (α : Type) where
  | valid (result : α)
  | invalid (issues : List Issue)
  deriving Inhabited

namespace Checked
variable {α β : Type}

def fail (fault : Fault) : Checked α := .invalid [⟨[], fault⟩]

def map (f : α → β) : Checked α → Checked β
  | .valid a => .valid (f a)
  | .invalid issues => .invalid issues

/-- Applies a checked function to a checked argument, keeping the issues of both. -/
def ap : Checked (α → β) → Checked α → Checked β
  | .valid f, .valid a => .valid (f a)
  | .valid _, .invalid issues => .invalid issues
  | .invalid issues, .valid _ => .invalid issues
  | .invalid issues, .invalid more => .invalid (issues ++ more)

instance : Applicative Checked where
  pure := .valid
  map := map
  seq f x := ap f (x ())

def andThen (x : Checked α) (f : α → Checked β) : Checked β :=
  match x with
  | .valid a => f a
  | .invalid issues => .invalid issues

def ensure (x : Checked α) (holds : α → Bool) (fault : α → Fault) : Checked α :=
  x.andThen fun a => if holds a then .valid a else fail (fault a)

def under (step : Step) : Checked α → Checked α
  | .valid a => .valid a
  | .invalid issues => .invalid (issues.map (·.under step))

def toOption : Checked α → Option α
  | .valid a => some a
  | .invalid _ => none

@[simp] theorem map_valid (f : α → β) (a : α) : f <$> (valid a) = valid (f a) := rfl
@[simp] theorem seq_valid (f : α → β) (a : α) :
    (valid f : Checked (α → β)) <*> valid a = valid (f a) :=
  rfl
@[simp] theorem andThen_valid (a : α) (f : α → Checked β) : (valid a).andThen f = f a := rfl
@[simp] theorem under_valid (step : Step) (a : α) : (valid a).under step = valid a := rfl

end Checked

abbrev Decoder (α : Type) := Value → Checked α

end RecordFlow.Schema
