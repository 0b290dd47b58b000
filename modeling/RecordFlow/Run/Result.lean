import RecordFlow.Schema.Issue
import RecordFlow.Value.Form

/-! # Results of actions and runs -/
namespace RecordFlow

inductive ActionStatus where
  | success
  | failed
  | skipped
  deriving DecidableEq, Inhabited

namespace ActionStatus

def name : ActionStatus → String
  | .success => "success"
  | .failed => "failed"
  | .skipped => "skipped"

end ActionStatus

/-- What one action did. A result that ends its run may name the job that goes on with it. -/
structure ActionResult where
  actionId : String
  kind : String
  status : ActionStatus
  output : Fields
  error : Option String
  sideEffect : Option String
  endsRun : Bool
  delayedJob : Option Uuid
  deriving Inhabited

def ActionResult.encode (r : ActionResult) : Value := .obj [
  ("action_id", .str r.actionId),
  ("type", .str r.kind),
  ("status", .str r.status.name),
  ("output", .obj r.output),
  ("error", .ofOption r.error),
  ("side_effect_ref", .ofOption r.sideEffect)]

inductive RunStatus where
  | running
  | completed
  | failed
  | capped
  | skipped
  deriving DecidableEq, Inhabited

namespace RunStatus

def name : RunStatus → String
  | .running => "running"
  | .completed => "completed"
  | .failed => "failed"
  | .capped => "capped"
  | .skipped => "skipped"

def isBreak : RunStatus → Bool
  | .failed | .capped => true
  | _ => false

end RunStatus

def ActionResult.encodeAll (rs : List ActionResult) : Value := .list (rs.map ActionResult.encode)

/-- What a run came to. One that was skipped has a reason and, as a rule, no row. -/
structure RunResult where
  run : Option Uuid
  workflow : Option Uuid
  record : Uuid
  status : RunStatus
  executed : List ActionResult
  error : Option String
  reason : Option String
  delayedJob : Option Uuid
  deriving Inhabited

namespace RunResult

def encode (r : RunResult) : Value := .obj [
  ("run_id", .opt .uuid r.run),
  ("workflow_id", .opt .uuid r.workflow),
  ("record_id", .uuid r.record),
  ("status", .str r.status.name),
  ("matched", .bool true),
  ("actions_executed", ActionResult.encodeAll r.executed),
  ("error", .ofOption r.error),
  ("reason", .ofOption r.reason),
  ("delayed_job_id", .opt .uuid r.delayedJob)]

def successful (r : RunResult) : List String :=
  (r.executed.filter (·.status = .success)).map ActionResult.kind

end RunResult

/-! ## Stored runs -/

/-- A run as it is stored: what it did is kept in written form. -/
structure Run where
  id : Uuid
  workflow : Option Uuid
  source : String
  trigger : String
  record : Option Uuid
  status : String
  isDry : Bool
  executed : Value
  consumed : Value
  output : Value
  error : Option String
  key : Option String
  parent : Option Uuid
  depth : Value
  correlation : Option String
  finishedAt : Option Calendar.Instant
  deriving Inhabited

def Run.clashes (a b : Run) : Bool := a.key.isSome && a.key = b.key

def Run.encode (r : Run) : Value := .present [
  ("id", .uuid r.id),
  ("workflow_id", .opt .uuid r.workflow),
  ("source", .str r.source),
  ("trigger_type", .str r.trigger),
  ("record_id", .opt .uuid r.record),
  ("status", .str r.status),
  ("is_dry_run", .bool r.isDry),
  ("actions_executed", r.executed),
  ("actions_consumed", r.consumed),
  ("output_json", r.output),
  ("error", .ofOption r.error),
  ("idempotency_key", .ofOption r.key),
  ("parent_run_id", .opt .uuid r.parent),
  ("depth", r.depth),
  ("correlation_id", .ofOption r.correlation),
  ("finished_at", .opt .instant r.finishedAt)]

end RecordFlow
