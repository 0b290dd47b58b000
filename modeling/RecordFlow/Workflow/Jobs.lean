import RecordFlow.Job.Schedule
import RecordFlow.Run.Execute

/-! # Jobs of workflows

The rest of a run after a delay, another try of one action, and a scheduled workflow for the records
of its module. A workflow that is scheduled gets a job for every interval.
-/
namespace RecordFlow
open RecordFlow.Flow Calendar

def discarded (what : String) : Fields := [("discarded", .str what)]

namespace Run

def linkParent (run : Option Uuid) (parent : Option Uuid) : Flow Unit := do
  match run, parent with
  | some run, some parent =>
    if (← find? Run run).isSome then
      update run fun r : Run => { r with parent := some parent }
      commit
  | _, _ => return

def handedBudget (payload : Fields) : Flow Budget := do
  let maxActions ← orThrow (payload.wholeOr "max_actions" (← settings).maxActions)
  let consumed ← orThrow (payload.wholeOr "actions_consumed" 0)
  return ⟨maxActions, consumed⟩

def outcome (r : RunResult) : Fields :=
  [("run_id", .str ((r.run.map Uuid.text).getD "None")), ("status", .str r.status.name)]

def recordOf? (payload : Value) : Flow (Option Record) := do
  let id ← orThrow (payload.demand "record_id" >>= Value.identifier)
  Record.get? id

end Run

namespace Workflow
open Run

/-- Whether a run of a workflow stops at the first failed action; none if the workflow cannot be
used any more. Without a workflow it does. -/
def haltsOf? (workflow : Option Uuid) : Flow (Option Bool) := do
  match workflow with
  | none => return some true
  | some id =>
    match ← find? StoredWorkflow id with
    | some w => return if w.isEnabled then some w.haltOnFailure else none
    | none => return none

def resumeDelayed (payload : Value) : Flow Fields := do
  match ← recordOf? payload with
  | none => return discarded "record_not_found"
  | some record =>
    let payload := payload.fields
    let workflow := (payload.getD "workflow_id").identifier?
    match ← haltsOf? workflow with
    | none => return discarded "workflow_unavailable"
    | some halts =>
      let budget ← handedBudget payload
      let depth ← orThrow (payload.wholeOr "depth" 0)
      let c : Context := { Context.root record "delayed" 0 with
        budget := budget
        actor := payload.getD "actor_id"
        source := ((payload.getD "source").orElse (.str Context.workflowSource)).text
        workflow := workflow
        depth := depth }
      let actions ← valid (storedActions (payload.getD "actions"))
      let r ← Run.start c actions halts
      linkParent r.run (payload.getD "parent_run_id").identifier?
      return outcome r

/-- Tries one action again, for the last time. -/
def retryAction (payload : Value) : Flow Fields := do
  match ← recordOf? payload with
  | none => return discarded "record_not_found"
  | some record =>
    let written ← orThrow (payload.demand "action")
    let payload := payload.fields
    let action := (← valid (Action.decode written)).withoutRetry
    let budget ← handedBudget payload
    let c : Context := { Context.root record "retry" 0 with
      budget := budget
      actor := payload.getD "actor_id"
      workflow := (payload.getD "workflow_id").identifier? }
    let r ← Run.start c [action] true
    linkParent r.run (payload.getD "parent_run_id").identifier?
    if r.status ≠ .completed then
      match r.error with
      | some error => throw (.job (.reported error))
      | none => throw (.job (.ended ("retry of " ++ action.kind) r.status.name))
    return outcome r

structure Tally where
  matched : Nat
  completed : Nat
  failed : Nat
  skipped : Nat
  deriving Inhabited

namespace Tally

def add (t : Tally) : RunStatus → Tally
  | .failed | .capped => { t with matched := t.matched + 1, failed := t.failed + 1 }
  | .skipped => { t with matched := t.matched + 1, skipped := t.skipped + 1 }
  | _ => { t with matched := t.matched + 1, completed := t.completed + 1 }

def encode (t : Tally) : Fields := [
  ("matched", .nat t.matched),
  ("completed", .nat t.completed),
  ("failed", .nat t.failed),
  ("skipped", .nat t.skipped)]

end Tally

def scheduledKey (job record : Uuid) : String := "scheduled:" ++ job.text ++ ":" ++ record.text

def runForEach (w : Workflow) (job : Uuid) : List Record → Tally → Flow Tally
  | [], t => return t
  | record :: rest, t => do
    if Condition.holds? record.context none w.conditions then
      let c ← Context.fresh record Trigger.scheduled.name
      let r ← w.executeIn { c with key := some (scheduledKey job record.id) } record
      runForEach w job rest (t.add r.status)
    else runForEach w job rest t

def runScheduled (job : Uuid) (payload : Value) : Flow Fields := do
  let id ← orThrow (payload.demand "workflow_id" >>= Value.identifier)
  match ← find? StoredWorkflow id with
  | none => return discarded "workflow_unavailable"
  | some row =>
    if !row.isEnabled || row.trigger ≠ Trigger.scheduled.name then
      return discarded "workflow_unavailable"
    let w ← valid row.definition
    let records ← Record.list (.str w.module) (← settings).scheduledBatch
    return (← runForEach w job records ⟨0, 0, 0, 0⟩).encode

def defaultIntervalMinutes : Int := 60

/-- Whether an interval has passed since the last time. A time in a row is read as a universal
one. -/
def isDue (last : Option Instant) (m : Moment) (minutes : Int) : Except OutOfRange Bool := do
  match last with
  | none => return true
  | some last => return (← seconds? (minutes * 60)) ≤ m.universal.micros - last.micros

def scheduleIfDue (row : StoredWorkflow) (m : Moment) : Flow (Option Uuid) := do
  let config ← shaped row.config.lookable
  let minutes ← orThrow (config.wholeOr "interval_minutes" defaultIntervalMinutes)
  if ← inTime (isDue row.lastScheduledAt m minutes) then
    let period ← inTime (m.universal.period? (minutes * 60))
    let job ← Job.schedule {
      kind := scheduledKind
      payload := .obj [("workflow_id", .uuid row.id)]
      runAt := some m.wall
      record := none
      maxAttempts := none
      key := some s!"workflow_scheduled:{row.id.text}:{period}" }
    update row.id fun w : StoredWorkflow => { w with lastScheduledAt := some m.wall }
    return some job.id
  else return none

def scheduleEach (m : Moment) : List StoredWorkflow → Flow (List Uuid)
  | [] => return []
  | row :: rest => do
    let job ← scheduleIfDue row m
    return job.toList ++ (← scheduleEach m rest)

def scheduleDue (m : Moment) : Flow (List Uuid) := do
  let rows := (← all StoredWorkflow).filter fun w =>
    w.trigger = Trigger.scheduled.name && w.isEnabled
  let jobs ← scheduleEach m rows
  commit
  return jobs

end Workflow

end RecordFlow
