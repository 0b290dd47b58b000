import RecordFlow.Action.Perform
import RecordFlow.Workflow.Trigger

/-! # Runs

A run carries out actions in order and keeps a row of what it did, which is saved after every
action. A workflow runs for a record unless something speaks against it. A write by an action
triggers further workflows, whose runs are nested in the one that wrote.

The nesting is bounded: every level takes at least one action off the budget, so the reaction to a
write is defined by recursion on the number of levels that the budget allows.
-/
namespace RecordFlow
open RecordFlow.Flow Scoped

structure Progress where
  executed : List ActionResult
  status : RunStatus
  error : Option String
  output : Fields
  delayedJob : Option Uuid
  limit : Option LimitReached
  deriving Inhabited

namespace Progress

def start : Progress := ⟨[], .completed, none, [], none, none⟩

/-- Takes in the result of an action; the first error stays. -/
def add (p : Progress) (r : ActionResult) : Progress :=
  let p := { p with executed := p.executed ++ [r] }
  if r.status = .failed then { p with status := .failed, error := p.error <|> r.error } else p

def handOver (p : Progress) (r : ActionResult) : Progress :=
  { p with
    delayedJob := r.delayedJob
    output := Fields.put "delayed_job_id" (.opt .uuid r.delayedJob) p.output }

def cap (p : Progress) (l : LimitReached) : Progress :=
  { p with
    status := .capped
    error := some LimitReached.code
    output := Fields.put "limit" (.obj l.encode) p.output
    limit := some l }

end Progress

namespace Run

/-- Opens a run for a context; a key that another run has is refused. -/
def openRun (c : Context) : Flow Run := do
  let correlation := (← ambient).correlation
  let run ← insertIf (ρ := Run)
    (fun id => {
      id := id
      workflow := c.workflow
      source := c.source
      trigger := c.trigger
      record := some c.record.id
      status := RunStatus.running.name
      isDry := c.isDry
      executed := .list []
      consumed := .int 0
      output := .obj []
      error := none
      key := c.key
      parent := c.parent
      depth := .int c.depth
      correlation := correlation
      finishedAt := none })
    fun rows row => !rows.any row.clashes
  commit
  return run

def checkpoint (run : Uuid) (executed : List ActionResult) (consumed : Int) : Flow Unit := do
  let _ ← fetch Run run
  update run fun r : Run =>
    { r with executed := ActionResult.encodeAll executed, consumed := .int consumed }
  commit

def performFrom (react : Reaction) (run : Uuid) (consumedBefore : Int) (halts : Bool) :
    List Action → Progress → Scoped Progress
  | [], p => return p
  | a :: rest, p => do
    changeContext fun c => { c with pending := rest }
    match ← orLimit (a.perform react) with
    | .error l =>
      rollback
      return p.cap (l.inRun run)
    | .ok result =>
      let p := p.add result
      checkpoint run p.executed ((← context).budget.consumed - consumedBefore)
      if result.status = .failed ∧ halts = true then return p
      if result.endsRun then return p.handOver result
      performFrom react run consumedBefore halts rest p

def workflowText (workflow : Option Uuid) : Value := .opt .uuid workflow

/-- Closes a run and tells about it; trial runs are not announced. -/
def finish (run : Uuid) (consumedBefore : Int) (p : Progress) (c : Context) : Flow Unit := do
  let _ ← fetch Run run
  let t ← now
  update run fun r : Run => { r with
    status := p.status.name
    error := p.error
    output := .obj p.output
    executed := ActionResult.encodeAll p.executed
    consumed := .int (c.budget.consumed - consumedBefore)
    finishedAt := some t }
  commit
  count (.run c.source p.status.name)
  note (AuditEntry.actorName c.actor) "automation.run" run.text
    (if c.isDry then "automation.run.dry_run" else "automation.run.finished")
    .null
    (.obj [
      ("status", .str p.status.name),
      ("source", .str c.source),
      ("workflow_id", workflowText c.workflow),
      ("record_id", .uuid c.record.id),
      ("action_count", .nat p.executed.length),
      ("depth", .int c.depth)])
  if !c.isDry then
    announce "automation.run.finished" c.actor [
      ("run_id", .uuid run),
      ("workflow_id", workflowText c.workflow),
      ("record_id", .uuid c.record.id),
      ("source", .str c.source),
      ("status", .str p.status.name)]

def tellLimit (l : LimitReached) (c : Context) : Flow Unit := do
  count (.guardrail LimitReached.reason)
  note (AuditEntry.actorName c.actor) "automation.workflow"
    ((c.workflow.getD c.record.id).text) "workflow.blocked" .null
    (.obj (l.encode ++ [("record_id", .uuid c.record.id), ("depth", .int c.depth)]))

def result (run : Uuid) (p : Progress) (c : Context) : RunResult where
  run := some run
  workflow := c.workflow
  record := c.record.id
  status := p.status
  executed := p.executed
  error := p.error
  reason := none
  delayedJob := p.delayedJob

/-- Goes through the actions of an open run. Every run that the limit cuts short is closed; one that
is nested passes the limit on. -/
def goThrough (react : Reaction) (run : Uuid) (actions : List Action) (halts : Bool) :
    Scoped RunResult := do
  let consumedBefore := (← context).budget.consumed
  let p ← performFrom react run consumedBefore halts actions .start
  let c ← context
  finish run consumedBefore p c
  match p.limit with
  | none => return result run p c
  | some l =>
    if l.cappedRun = some run then tellLimit l c
    if c.parent.isSome then throw (.limit l)
    return result run p c

/-- Runs a part as part of a run: what goes out meanwhile bears the run's mark. -/
def marked {α : Type} (run : Uuid) (part : Scoped α) : Scoped α := do
  let before := (← get).world.ambient.run
  let mark := fun (r : Option String) =>
    (modify fun w => { w with ambient := { w.ambient with run := r } } : Flow Unit)
  mark (some run.text)
  try part finally mark before

def runActions (react : Reaction) (actions : List Action) (halts : Bool) : Scoped RunResult := do
  let run ← openRun (← context)
  changeContext fun c => { c with run := some run.id }
  marked run.id (goThrough react run.id actions halts)

end Run

namespace Workflow

def skipped (w : Workflow) (record : Record) (reason : String) (run : Option Uuid) : RunResult :=
  ⟨run, w.id, record.id, .skipped, [], none, some reason, none⟩

def tellCooldown (w : Workflow) (record : Record) (seconds period : Int) (actor : Value) :
    Flow Unit := do
  count (.guardrail "COOLDOWN")
  note (AuditEntry.actorName actor) "automation.workflow" (Cooldown.workflowText w.id)
    "workflow.blocked" .null
    (.obj [
      ("reason", .str "COOLDOWN"),
      ("record_id", .uuid record.id),
      ("cooldown_seconds", .int seconds),
      ("time_bucket", .int period)])

/-- Whether the workflow has run for the record in this period already; if not, notes that it
does now. -/
def coolsDown (w : Workflow) (record : Record) (actor : Value) : Flow Bool := do
  match w.cooldownSeconds with
  | none => return false
  | some seconds =>
    if seconds = 0 then return false
    let period ← inTime ((← moment).universal.period? seconds)
    let noted := fun (id : Uuid) => Cooldown.ofWorkflow id w.id record.id period
    if (← all Cooldown).any (noted default).clashes then
      tellCooldown w record seconds period actor
      return true
    let _ ← insert noted
    return false

def runWithKey? (key : Option String) : Flow (Option Run) := do
  match key with
  | some k => if k.isEmpty then return none else return (← all Run).find? fun r => r.key = some k
  | none => return none

def cappedBudget (w : Workflow) (c : Context) : Context :=
  match c.parent, w.runCountCap with
  | none, some cap =>
    if cap = 0 then c
    else { c with budget := { c.budget with maxActions := min c.budget.maxActions cap } }
  | _, _ => c

/-- Runs a workflow for a record, unless it is disabled, has been run under the same key, or cools
down. -/
def execute (react : Reaction) (w : Workflow) (record : Record) : Scoped RunResult := do
  changeContext fun c => { c with record := record, workflow := w.id }
  let c ← context
  if !w.isEnabled then return w.skipped record "workflow_disabled" none
  if let some run ← runWithKey? c.key then
    return w.skipped record "duplicate_idempotency_key" (some run.id)
  if !c.isDry then
    if ← w.coolsDown record c.actor then return w.skipped record "COOLDOWN" none
  changeContext w.cappedBudget
  Run.runActions react w.actions w.haltOnFailure

/-- Runs the workflows of a trigger one after the other, each on the record as the one before left
it. A run that failed or met the limit is the last. -/
def executeEach {m : Type → Type} [Monad m] [MonadLiftT Flow m]
    (launch : Workflow → Record → m RunResult) (isDry : Bool) (previous : Option Record) :
    List StoredWorkflow → Record → m (List RunResult)
  | [], _ => return []
  | row :: rest, current => do
    let w ← (valid row.definition : Flow Workflow)
    if ← (orThrow (w.matchesRecord current previous) : Flow Bool) then
      let result ← launch w current
      if result.status.isBreak then return [result]
      let found ← (if isDry then pure none else Record.get? current.id : Flow (Option Record))
      let more ← executeEach launch isDry previous rest (found.getD current)
      return result :: more
    else executeEach launch isDry previous rest current

def executeNested (react : Reaction) (trigger : String) (record : Record)
    (previous : Option Record) : Scoped (List RunResult) := do
  let rows ← StoredWorkflow.triggered record.module trigger
  let launch := fun (w : Workflow) (r : Record) => do
    let c ← context
    nested (c.child r trigger previous) (w.execute react r)
  executeEach launch (← context).isDry previous rows record

/-- The reaction to a write: it is announced, and the workflows that wait for it run. -/
def onWrite (react : Reaction) : Reaction := fun before after => do
  let paths := allFields before after
  let changed ← readable (changedPaths before.context after.context paths)
  announce "crm.record.updated" (← context).actor [
    ("record_id", .uuid after.id),
    ("module", after.module),
    ("changed_fields", .strings changed),
    ("row_version", .int after.version)]
  let _ ← executeNested react Trigger.onUpdate.name after (some before)
  let _ ← executeNested react Trigger.onFieldChange.name after (some before)
  let found ← (Record.get? after.id : Flow (Option Record))
  changeContext fun c => { c with record := found.getD after }

def reaction : (levels : Nat) → Reaction
  | 0 => fun before after => onWrite (fun _ _ => pure ()) before after
  | levels + 1 => fun before after => onWrite (reaction levels) before after

end Workflow

namespace Context

def reaction (c : Context) : Reaction := Workflow.reaction c.budget.remaining

def fresh (record : Record) (trigger : String) : Flow Context := do
  return .root record trigger (← settings).maxActions

end Context

namespace Workflow

def executeIn (c : Context) (w : Workflow) (record : Record) : Flow RunResult := do
  return (← runIn c (w.execute c.reaction record)).1

def executeTriggered (trigger : String) (record : Record) (previous : Option Record) :
    Flow (List RunResult) := do
  let rows ← StoredWorkflow.triggered record.module trigger
  let launch := fun (w : Workflow) (r : Record) => do
    let c ← Context.fresh r trigger
    w.executeIn { c with previous := previous } r
  executeEach launch false previous rows record

end Workflow

def Run.start (c : Context) (actions : List Action) (halts : Bool) : Flow RunResult := do
  return (← runIn c (Run.runActions c.reaction actions halts)).1

end RecordFlow
