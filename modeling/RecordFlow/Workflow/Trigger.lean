import RecordFlow.Condition.Evaluate
import RecordFlow.Record.Basic
import RecordFlow.Store.Access

/-! # What triggers a workflow

Workflows of a trigger run in order of priority. One that waits for a change of fields watches the
paths that it names, or those of its conditions, or every field.
-/
namespace RecordFlow
open RecordFlow.Flow

namespace StoredWorkflow

def isFor (module trigger : String) (w : StoredWorkflow) : Bool :=
  w.module = module && w.trigger = trigger && w.isEnabled

/-- Higher priorities first, and among equals the oldest. -/
def precedes (a b : StoredWorkflow) : Bool :=
  Cell.isBelow b.priority a.priority
    || (!Cell.isBelow a.priority b.priority && decide (a.createdAt ≤ b.createdAt))

/-- The workflows that wait for a trigger in a module; a module is looked for by the text that its
column would hold. -/
def triggered (module : Value) (trigger : String) : Flow (List StoredWorkflow) := do
  let module ← taken (Cell.text module)
  let rows := (← Flow.all StoredWorkflow).filter fun w => module.any fun m => w.isFor m trigger
  return sorted precedes rows

end StoredWorkflow

def allFields (before after : Record) : List String :=
  let names := before.fields.map Prod.fst ++ after.fields.map Prod.fst ++ SystemField.names
  sorted (fun a b => !(decide (b < a))) (firstOccurrences names)

def differsAt (v w : Value) (path : String) : Except BadNumeral Bool := do
  let x ← v.fieldValue path
  let y ← w.fieldValue path
  return !x.same y

/-- Whether the values differ at one of the paths; the rest is not looked at. -/
def differsAtAny (v w : Value) : List Value → Except Failure Bool
  | [] => .ok false
  | .str path :: rest => do
    if ← (differsAt v w path).mapError .numeral then return true else differsAtAny v w rest
  | other :: _ => .error (.shape (.noPart other.kindName "split"))

def changedPaths (before after : Value) : List String → Except BadNumeral (List String)
  | [] => .ok []
  | path :: rest => do
    let differs ← differsAt before after path
    let more ← changedPaths before after rest
    return if differs then path :: more else more

namespace Workflow

def watchedPaths (w : Workflow) (before after : Record) : Except ShapeFault (List Value) := do
  match ← (w.config.getD "watch_fields").items with
  | [] =>
    let paths := (w.conditions.map Condition.referenced).getD []
    return (if paths.isEmpty then allFields before after else paths).map .str
  | named => return named

def watchedChange (w : Workflow) (record : Record) (previous : Option Record) :
    Except Failure Bool := do
  match previous with
  | none => return false
  | some before =>
    let paths ← (w.watchedPaths before record).mapError .shape
    differsAtAny record.context before.context paths

def matchesRecord (w : Workflow) (record : Record) (previous : Option Record) :
    Except Failure Bool := do
  let changed ← if w.trigger = .onFieldChange then w.watchedChange record previous else pure true
  return changed
    && Condition.holds? record.context (previous.map Record.context) w.conditions

end Workflow

end RecordFlow
