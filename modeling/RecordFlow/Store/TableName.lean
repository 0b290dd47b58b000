import RecordFlow.Uuid

/-! # Tables by name

Every table has a name and a number; the number is part of the identifiers of its rows.
-/
namespace RecordFlow

inductive TableName where
  | record
  | child
  | workflow
  | run
  | idempotencyKey
  | rule
  | cadence
  | enrollment
  | job
  | blueprint
  | stageHistory
  | process
  | approval
  | approvalLog
  | message
  deriving DecidableEq, Inhabited

namespace TableName

def table : List (String × TableName) := [
  ("crm_record", .record),
  ("crm_record_child", .child),
  ("automation_workflow", .workflow),
  ("automation_run", .run),
  ("automation_idempotency_key", .idempotencyKey),
  ("assignment_rule", .rule),
  ("cadence", .cadence),
  ("cadence_enrollment", .enrollment),
  ("scheduler_job", .job),
  ("blueprint", .blueprint),
  ("blueprint_stage_history", .stageHistory),
  ("approval_process", .process),
  ("approval", .approval),
  ("approval_action_log", .approvalLog),
  ("message_outbox", .message)]

def name : TableName → String
  | .record => "crm_record"
  | .child => "crm_record_child"
  | .workflow => "automation_workflow"
  | .run => "automation_run"
  | .idempotencyKey => "automation_idempotency_key"
  | .rule => "assignment_rule"
  | .cadence => "cadence"
  | .enrollment => "cadence_enrollment"
  | .job => "scheduler_job"
  | .blueprint => "blueprint"
  | .stageHistory => "blueprint_stage_history"
  | .process => "approval_process"
  | .approval => "approval"
  | .approvalLog => "approval_action_log"
  | .message => "message_outbox"

def number : TableName → Nat
  | .record => 1
  | .child => 2
  | .workflow => 3
  | .run => 4
  | .idempotencyKey => 5
  | .rule => 6
  | .cadence => 7
  | .enrollment => 8
  | .job => 9
  | .blueprint => 10
  | .stageHistory => 11
  | .process => 12
  | .approval => 13
  | .approvalLog => 14
  | .message => 15

def rowId (t : TableName) (n : Nat) : Uuid := Uuid.ofRow t.number n

example (t : TableName) : table.lookup t.name = some t := by cases t <;> decide

end TableName

end RecordFlow
