import RecordFlow.Workflow.Jobs

/-! # Steps of cadences

A step is carried out as a run of one action by the job that its enrollment waits for; any other job
is discarded. Then the enrollment goes on to the next step.
-/
namespace RecordFlow
open RecordFlow.Flow

namespace CadenceStep

def label (r : Record) : String :=
  (r.title.orElse (.str r.id.text)).text

def givenOr (given : Option String) (fallback : String) : String :=
  match given with
  | some s => if s.isEmpty then fallback else s
  | none => fallback

def taskOf (s : CadenceStep) (r : Record) (dueDays : Int) : TaskDraft where
  title := givenOr s.title ("Follow up: " ++ label r)
  description := s.description
  dueInDays := dueDays
  priority := s.priority
  assignedTo := s.assignedTo

def callOf (s : CadenceStep) (r : Record) (dueHours : Int) : ActivityDraft where
  kind := .call
  title := givenOr s.title ("Call: " ++ label r)
  description := some (givenOr s.script "Make a follow-up call")
  dueInDays := none
  dueInHours := some dueHours
  priority := .high
  assignedTo := s.assignedTo
  call := some .outbound
  meeting := none
  location := none
  attendees := []

def action (s : CadenceStep) (r : Record) (settings : Settings) : Action where
  id := s.id
  condition := none
  operation := match s.kind with
    | .task => .createTask (s.taskOf r settings.taskDueDays)
    | .email => .sendEmail ⟨s.template, s.subject, s.body, none⟩
    | .call => .createActivity (s.callOf r settings.callDueHours)

end CadenceStep

namespace Enrollment

def ended (status : EnrollmentStatus) (reason : Option String) : Fields :=
  ("status", .str status.name) :: (reason.map fun r => ("reason", .str r)).toList

def haltFor (e : Enrollment) (reason : String) : Flow Fields := do
  e.halt reason none
  commit
  return ended .stopped (some reason)

def stepOutcome (run : RunResult) (step : Int) (e : Enrollment) : Fields := [
  ("run_id", .str ((run.run.map Uuid.text).getD "None")),
  ("step_index", .int step),
  ("status", .str e.status.name)]

def advance (e : Enrollment) (steps : List CadenceStep) : Flow Enrollment := do
  let t ← now
  let moved := { e with step := e.step + 1 }
  if (steps.length : Int) ≤ moved.step then
    let done := moved.complete t
    store done
    return done
  moved.openStep (← stepAt steps moved.step) t

/-- Carries out a step for a record and goes on, if the enrollment still waits for this job. -/
def carryOut (e : Enrollment) (job : Uuid) (steps : List CadenceStep) (s : CadenceStep)
    (record : Record) : Flow Fields := do
  let c ← Context.fresh record "cadence_step"
  let run ← Run.start { c with actor := .ofOption e.enrolledBy, source := "cadence" }
    [s.action record (← settings)] true
  if run.status ≠ .completed then
    match run.error with
    | some error => throw (.job (.reported error))
    | none => throw (.job (.ended s!"cadence step {e.step}" run.status.name))
  let current ← fetch Enrollment e.id
  if current.status ≠ .active ∨ current.pendingJob ≠ some job then
    commit
    return stepOutcome run e.step current
  let moved ← advance { current with step := e.step } steps
  commit
  return stepOutcome run e.step moved

def proceed (e : Enrollment) (job : Uuid) : Flow Fields := do
  let c ← fetch Cadence e.cadence
  let steps ← c.readSteps
  if (steps.length : Int) ≤ e.step then
    store (e.complete (← now))
    commit
    return ended .completed none
  match ← Record.get? e.record with
  | none => e.haltFor "record_not_found"
  | some record =>
    if !c.exitCondition.isFalsy && Condition.writtenHolds c.exitCondition record.context none then
      e.haltFor "exit_condition"
    else e.carryOut job steps (← stepAt steps e.step) record

def processStep (job : Uuid) (payload : Value) : Flow Fields := do
  let id ← orThrow (payload.demand "enrollment_id" >>= Value.identifier)
  match ← find? Enrollment id with
  | none => return discarded "enrollment_not_found"
  | some e =>
    if e.pendingJob ≠ some job then return discarded "stale_job"
    if e.status ≠ .active then return discarded ("enrollment_" ++ e.status.name)
    e.proceed job

end Enrollment

end RecordFlow
