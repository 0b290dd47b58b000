import RecordFlow.Store.Cell
import RecordFlow.Store.TableName

/-! # Columns

The columns of every table: what they hold, and whether they need a value.
-/
namespace RecordFlow

/-- Numbers are whole numbers, but a column of the kind `number` keeps also what is none. -/
inductive ColumnKind where
  | identifier
  | text
  | number
  | whole
  | flag
  | time
  | data
  deriving DecidableEq, Inhabited

/-- Whether a column of a kind takes a value that is written into it by hand. Identifiers and times
are only ever taken away by hand. -/
def ColumnKind.takes (kind : ColumnKind) (v : Value) : Except CellFault Unit :=
  match kind with
  | .identifier | .time => if v.isNull then .ok () else .error .unfit
  | .text => (Cell.text v).map fun _ => ()
  | .number => (Cell.number v).map fun _ => ()
  | .whole => (Cell.whole v).map fun _ => ()
  | .flag => (Cell.flag v).map fun _ => ()
  | .data => .ok ()

structure Column where
  name : String
  kind : ColumnKind
  isRequired : Bool
  deriving DecidableEq, Inhabited

namespace Column

def needs (kind : ColumnKind) (names : List String) : List Column :=
  names.map fun name => ⟨name, kind, true⟩

def allows (kind : ColumnKind) (names : List String) : List Column :=
  names.map fun name => ⟨name, kind, false⟩

/-- Null is a piece of data like any other. -/
def refusesNull (c : Column) : Bool := c.isRequired && c.kind != .data

end Column

namespace TableName
open Column

def updateTime : String := "updated_at"

def columns : TableName → List Column
  | .record =>
    needs .identifier ["id"] ++ needs .text ["module"] ++ needs .flag ["is_open"]
      ++ needs .data ["data"] ++ needs .whole ["row_version"]
      ++ needs .time ["created_at", updateTime]
      ++ allows .text ["title", "owner_id", "stage", "created_by"]
  | .child =>
    needs .identifier ["id", "record_id"] ++ needs .text ["kind", "status"]
      ++ needs .data ["payload_json"] ++ needs .time ["created_at"]
      ++ allows .text ["title", "body", "assigned_to", "created_by"] ++ allows .time ["due_at"]
  | .workflow =>
    needs .identifier ["id"] ++ needs .text ["name", "module", "trigger_type"]
      ++ needs .flag ["is_enabled", "halt_on_failure"] ++ needs .number ["priority"]
      ++ needs .data ["trigger_config", "actions_json"] ++ needs .time ["created_at", updateTime]
      ++ allows .text ["description", "created_by"] ++ allows .data ["condition_json"]
      ++ allows .number ["run_count_cap", "cooldown_seconds"] ++ allows .time ["last_scheduled_at"]
  | .run =>
    needs .identifier ["id"] ++ needs .text ["source", "trigger_type", "status"]
      ++ needs .flag ["is_dry_run"] ++ needs .data ["actions_executed", "output_json"]
      ++ needs .number ["actions_consumed", "depth"] ++ needs .time ["started_at"]
      ++ allows .identifier ["workflow_id", "record_id", "parent_run_id"]
      ++ allows .text ["error", "idempotency_key", "correlation_id"]
      ++ allows .time ["finished_at"]
  | .idempotencyKey =>
    needs .identifier ["id"] ++ needs .text ["endpoint", "key", "request_hash"]
      ++ needs .time ["created_at"] ++ allows .text ["response_json"]
  | .rule =>
    needs .identifier ["id"] ++ needs .text ["name", "strategy"] ++ needs .flag ["is_enabled"]
      ++ needs .data ["candidates_json", "config_json"] ++ needs .whole ["cursor", "row_version"]
      ++ needs .time ["created_at", updateTime] ++ allows .text ["module"]
  | .cadence =>
    needs .identifier ["id"] ++ needs .text ["name"] ++ needs .flag ["is_enabled"]
      ++ needs .data ["steps_json"] ++ needs .time ["created_at", updateTime]
      ++ allows .text ["description", "module"] ++ allows .data ["exit_condition_json"]
  | .enrollment =>
    needs .identifier ["id", "cadence_id", "record_id"] ++ needs .text ["status"]
      ++ needs .whole ["current_step_index"] ++ needs .time ["created_at", updateTime]
      ++ allows .identifier ["pending_job_id"] ++ allows .text ["enrolled_by", "stopped_reason"]
      ++ allows .time ["next_step_due_at", "completed_at"]
  | .job =>
    needs .identifier ["id"] ++ needs .text ["job_type", "status"] ++ needs .data ["payload_json"]
      ++ needs .whole ["attempt", "max_attempts"]
      ++ needs .time ["run_at", "created_at", updateTime]
      ++ allows .identifier ["record_id"] ++ allows .data ["result_json"]
      ++ allows .text ["idempotency_key", "claimed_by", "last_error", "correlation_id"]
      ++ allows .time ["claimed_at", "finished_at"]
  | .blueprint =>
    needs .identifier ["id"] ++ needs .text ["name", "module"] ++ needs .flag ["is_enabled"]
      ++ needs .data ["stages_json"] ++ needs .time ["created_at", updateTime]
  | .stageHistory =>
    needs .identifier ["id", "blueprint_id", "record_id"] ++ needs .text ["to_stage"]
      ++ needs .time ["created_at"] ++ allows .identifier ["approval_id", "run_id"]
      ++ allows .text ["from_stage", "changed_by"]
  | .process =>
    needs .identifier ["id"] ++ needs .text ["name"] ++ needs .flag ["is_enabled"]
      ++ needs .data ["steps_json", "on_approve_actions", "on_reject_actions"]
      ++ needs .time ["created_at", updateTime] ++ allows .text ["module"]
  | .approval =>
    needs .identifier ["id", "process_id", "record_id"] ++ needs .text ["status"]
      ++ needs .whole ["current_step", "row_version"] ++ needs .flag ["transition_executed"]
      ++ needs .data ["context_json", "resolved_approvers"]
      ++ needs .time ["created_at", updateTime]
      ++ allows .text ["requested_by", "resolved_by"] ++ allows .time ["resolved_at", "expires_at"]
  | .approvalLog =>
    needs .identifier ["id", "approval_id"] ++ needs .whole ["step_index"]
      ++ needs .text ["action"] ++ needs .time ["created_at"]
      ++ allows .text ["actor_id", "comment"]
  | .message =>
    needs .identifier ["id"] ++ needs .text ["channel", "recipient", "status"]
      ++ needs .data ["payload_json"] ++ needs .time ["created_at"]
      ++ allows .text ["subject", "body"] ++ allows .identifier ["record_id"]

def column? (t : TableName) (name : String) : Option Column :=
  t.columns.find? (·.name = name)

def isDated (t : TableName) : Bool := (t.column? updateTime).isSome

end TableName

end RecordFlow
