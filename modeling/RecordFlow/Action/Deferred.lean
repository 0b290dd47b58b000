import RecordFlow.Action.Effect
import RecordFlow.Action.Encode
import RecordFlow.Action.Timing
import RecordFlow.Cadence.Enroll
import RecordFlow.Record.Template

/-! # Actions that are carried on later

Enrollments in cadences, delays, and calls to other services, which may be tried again. A delay
hands the rest of the run over to a job.
-/
namespace RecordFlow.Action
open RecordFlow.Flow Scoped

def startCadence (cadence : Uuid) : Scoped Effect := do
  let c ← context
  let output : Fields := [("cadence_id", .uuid cadence)]
  if c.isDry then return .planned output
  if !(← wiring).cadences then throw (.misconfigured .noCadences)
  let e ← Enrollment.enroll cadence c.record.id c.actor
  return .leaving (Fields.put "enrollment_id" (.uuid e.id) output) e.id.text

def stopCadence (cadence : Option Uuid) : Scoped Effect := do
  let c ← context
  let output : Fields := [("cadence_id", .opt .uuid cadence)]
  if c.isDry then return .planned output
  if !(← wiring).cadences then throw (.misconfigured .noCadences)
  let stopped ← Enrollment.unenroll c.record.id cadence "stopped_by_workflow" none
  return .report (Fields.put "stopped" (.nat stopped) output)

def origin (c : Context) : Fields := [
  ("workflow_id", .opt .uuid c.workflow),
  ("record_id", .uuid c.record.id),
  ("parent_run_id", .opt .uuid c.run),
  ("actions_consumed", .int c.budget.consumed),
  ("max_actions", .int c.budget.maxActions),
  ("actor_id", c.actor)]

def delayWait (d : Delay) : Scoped Effect := do
  let c ← context
  let due ← orThrow (d.due (← moment) c.record.context)
  let output : Fields :=
    [("run_at", .str due.text), ("remaining_actions", .nat c.pending.length)]
  if c.isDry then return { Effect.planned output with endsRun := true }
  if !(← wiring).jobs then throw (.misconfigured .noScheduler)
  let job ← Job.schedule {
    kind := delayKind
    payload := .obj (Fields.putAll (origin c) [
      ("source", .str c.source),
      ("actions", encodeActions c.pending),
      ("depth", .int c.depth)])
    runAt := some due.wall
    record := some c.record.id
    maxAttempts := none
    key := none }
  return {
    output := Fields.put "delayed_job_id" (.uuid job.id) output
    error := none
    sideEffect := some job.id.text
    endsRun := true
    delayedJob := some job.id }

/-- Takes the next reply; without one the call succeeds. -/
def call (c : Call) : Flow Reply := do
  modify fun w => { w with journal := { w.journal with calls := w.journal.calls ++ [c] } }
  match (← get).replies with
  | [] => return .status 200
  | reply :: rest =>
    modify fun w => { w with replies := rest }
    return reply

def webhookBody (w : Webhook) (c : Context) : Except BadNumeral Fields := do
  let body : Fields := [
    ("workflow_id", .opt .uuid c.workflow),
    ("run_id", .opt .uuid c.run),
    ("record_id", .uuid c.record.id),
    ("trigger_type", .str c.trigger)]
  let body := if w.includeRecord then Fields.put "record" c.record.context body else body
  match w.template with
  | some template =>
    if template.isEmpty then return body
    else return Fields.put "message" (.str (← Template.render c.record.context template)) body
  | none => return body

def callOutcome : Reply → Option String × Fields
  | .status code =>
    (if (Http.Answer.mk code none).ok then none else some s!"webhook returned {code}",
      [("status_code", .int code)])
  | .unreachable text => (some ("webhook request failed: " ++ text), [])

def withoutRetry (a : Action) : Action :=
  match a.operation with
  | .postWebhook w => { a with operation := .postWebhook { w with retries := false } }
  | _ => a

def postWebhook (a : Action) (w : Webhook) : Scoped Effect := do
  let c ← context
  let body ← readable (webhookBody w c)
  let output : Fields := [("url", .str w.url), ("method", .str w.method.name)]
  if c.isDry then return .planned output
  let timeout := (← settings).callTimeout
  let reply ← call ⟨w.url, w.method.name, w.headers, .obj body, timeout⟩
  let (error, answered) := callOutcome reply
  let output := output ++ answered
  if error.isSome ∧ w.retries = true ∧ (← wiring).jobs = true then
    let job ← Job.schedule {
      kind := retryKind
      payload := .obj (Fields.put "action" a.encode (origin c))
      runAt := none
      record := some c.record.id
      maxAttempts := none
      key := none }
    let output := Fields.put "retry_job_id" (.uuid job.id) output
    return ⟨output, error, some job.id.text, false, none⟩
  return ⟨output, error, none, false, none⟩

end RecordFlow.Action
