import RecordFlow.Action.Decode
import RecordFlow.Action.Encode
import RecordFlow.Workflow.Definition

/-! # Cadence definitions

A cadence is a sequence of steps, each a task, a message or a call some time after the one before,
and a condition that ends it early.
-/
namespace RecordFlow
open Schema

inductive StepKind where
  | task
  | email
  | call
  deriving DecidableEq, Inhabited

namespace StepKind

def table : List (String × StepKind) := [("task", .task), ("email", .email), ("call", .call)]

def name (k : StepKind) : String := nameIn table k

end StepKind

structure CadenceStep where
  id : String
  kind : StepKind
  delayDays : Int
  delayHours : Int
  title : Option String
  description : Option String
  priority : Priority
  assignedTo : String
  template : Option String
  subject : Option String
  body : Option String
  script : Option String
  deriving Inhabited

namespace CadenceStep

def broken? (s : CadenceStep) : Option Rule :=
  match s.kind with
  | .email =>
    if isGiven s.template || isGiven s.subject || isGiven s.body then none else some .emailStep
  | _ => none

def decode : Decoder CadenceStep := object fun f =>
  let step := CadenceStep.mk
    <$> optional f "id" defaultId string
    <*> required f "type" (oneOf StepKind.table)
    <*> optional f "delay_days" 0 (intFrom 0)
    <*> optional f "delay_hours" 0 (intFrom 0)
    <*> optional f "title" none (nullable string)
    <*> optional f "description" none (nullable string)
    <*> optional f "priority" .normal (oneOf Priority.table)
    <*> optional f "assigned_to" "owner" string
    <*> optional f "template_id" none (nullable string)
    <*> optional f "subject" none (nullable string)
    <*> optional f "body" none (nullable string)
    <*> optional f "script" none (nullable string)
  step.andThen fun s => obey s s.broken?

def encode (s : CadenceStep) : Value := .obj [
  ("id", .str s.id),
  ("type", .str s.kind.name),
  ("delay_days", .int s.delayDays),
  ("delay_hours", .int s.delayHours),
  ("title", .ofOption s.title),
  ("description", .ofOption s.description),
  ("priority", .str s.priority.name),
  ("assigned_to", .str s.assignedTo),
  ("template_id", .ofOption s.template),
  ("subject", .ofOption s.subject),
  ("body", .ofOption s.body),
  ("script", .ofOption s.script)]

end CadenceStep

structure CadenceDraft where
  name : String
  description : Option String
  module : Option String
  isEnabled : Bool
  steps : List CadenceStep
  exitCondition : Option Condition
  deriving Inhabited

namespace CadenceDraft

def decode : Decoder CadenceDraft := object fun f =>
  let raw := (fun name description module isEnabled steps exit =>
      ((exit : Value), CadenceDraft.mk name description module isEnabled steps none))
    <$> required f "name" nonEmpty
    <*> optional f "description" none (nullable string)
    <*> optional f "module" none (nullable string)
    <*> optional f "is_enabled" true bool
    <*> required f "steps" (nonEmptyListOf CadenceStep.decode)
    <*> optional f "exit_condition" .null anything
  raw.andThen fun (exit, draft) =>
    (Condition.parse exit).map fun c => { draft with exitCondition := c }

def encode (d : CadenceDraft) : Value := .obj [
  ("name", .str d.name),
  ("description", .ofOption d.description),
  ("module", .ofOption d.module),
  ("is_enabled", .bool d.isEnabled),
  ("steps", .list (d.steps.map CadenceStep.encode)),
  ("exit_condition", Condition.encode? d.exitCondition)]

end CadenceDraft

def storedCadenceSteps (v : Value) : Checked (List CadenceStep) :=
  listOf CadenceStep.decode (v.orElse (.list []))

end RecordFlow

/-! ## Stored cadences and enrollments

An enrollment is where a record stands in a cadence: the step that is next, when it is due, and the
job that will carry it out.
-/
namespace RecordFlow
open Calendar

structure Cadence where
  id : Uuid
  name : String
  description : Option String
  module : Option String
  isEnabled : Bool
  steps : Value
  exitCondition : Value
  deriving Inhabited

def Cadence.encode (c : Cadence) : Value := .present [
  ("id", .uuid c.id),
  ("name", .str c.name),
  ("description", .ofOption c.description),
  ("module", .ofOption c.module),
  ("is_enabled", .bool c.isEnabled),
  ("steps_json", c.steps),
  ("exit_condition_json", c.exitCondition)]

/-- The status of an enrollment; one that only a hand can have written is kept by its name. -/
inductive EnrollmentStatus where
  | active
  | paused
  | completed
  | stopped
  | other (name : String)
  deriving DecidableEq, Inhabited

namespace EnrollmentStatus

def table : List (String × EnrollmentStatus) := [
  ("active", .active), ("paused", .paused), ("completed", .completed), ("stopped", .stopped)]

def name : EnrollmentStatus → String
  | .other name => name
  | s => Schema.nameIn table s

def ofName (name : String) : EnrollmentStatus := (table.lookup name).getD (.other name)

def isLive : EnrollmentStatus → Bool
  | .active | .paused => true
  | _ => false

end EnrollmentStatus

structure Enrollment where
  id : Uuid
  cadence : Uuid
  record : Uuid
  status : EnrollmentStatus
  step : Int
  nextStepDueAt : Option Instant
  pendingJob : Option Uuid
  enrolledBy : Option String
  stoppedReason : Option String
  completedAt : Option Instant
  createdAt : Instant
  deriving Inhabited

namespace Enrollment

def encode (e : Enrollment) : Value := .present [
  ("id", .uuid e.id),
  ("cadence_id", .uuid e.cadence),
  ("record_id", .uuid e.record),
  ("status", .str e.status.name),
  ("current_step_index", .int e.step),
  ("next_step_due_at", .opt .instant e.nextStepDueAt),
  ("pending_job_id", .opt .uuid e.pendingJob),
  ("enrolled_by", .ofOption e.enrolledBy),
  ("stopped_reason", .ofOption e.stoppedReason),
  ("completed_at", .opt .instant e.completedAt)]

def state (e : Enrollment) : Fields := [
  ("status", .str e.status.name),
  ("current_step_index", .int e.step),
  ("pending_job_id", .opt .uuid e.pendingJob)]

def stop (e : Enrollment) (reason : String) : Enrollment :=
  { e with
    status := .stopped
    stoppedReason := some reason
    pendingJob := none
    nextStepDueAt := none }

def complete (e : Enrollment) (now : Instant) : Enrollment :=
  { e with
    status := .completed
    completedAt := some now
    pendingJob := none
    nextStepDueAt := none }

end Enrollment

end RecordFlow
