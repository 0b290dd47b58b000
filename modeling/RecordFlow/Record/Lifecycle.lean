import RecordFlow.Record.Encode
import RecordFlow.Run.Execute

/-! # The lifecycle of records

A record that is created or changed is saved first; then the workflows run that wait for it.
-/
namespace RecordFlow.Record
open RecordFlow.Flow

structure Written where
  record : Record
  runs : List RunResult
  deriving Inhabited

def Written.encode (w : Written) : Value := .obj [
  ("record", w.record.encode),
  ("runs", .list (w.runs.map RunResult.encode))]

/-- The record as it is now, or as it was last seen. -/
def reread (seen : Record) : Flow Record := return (← get? seen.id).getD seen

def launch (d : Draft) : Flow Written := do
  let r ← create d
  commit
  let runs ← Workflow.executeTriggered Trigger.onCreate.name r none
  return ⟨← r.reread, runs⟩

def revise (id : Uuid) (changes : Fields) : Flow Written := do
  let before ← fetch id
  let after ← patch id changes before.version
  commit
  let previous := some before
  let onUpdate ← Workflow.executeTriggered Trigger.onUpdate.name after previous
  let current ← after.reread
  let onFieldChange ← Workflow.executeTriggered Trigger.onFieldChange.name current previous
  return ⟨← current.reread, onUpdate ++ onFieldChange⟩

end RecordFlow.Record
