import RecordFlow.Json.Writer
import RecordFlow.Value.Form
import RecordFlow.Value.Shape
import RecordFlow.Workflow.Definition

/-! # Stored workflows

Conditions and actions are stored as they were written and read again when the workflow is used;
so are the cap, the cooldown and the priority, which are whole numbers unless a hand set them.
-/
namespace RecordFlow
open Schema

structure StoredWorkflow where
  id : Uuid
  name : String
  description : Option String
  module : String
  isEnabled : Bool
  trigger : String
  config : Value
  conditions : Value
  actions : Value
  haltOnFailure : Bool
  runCountCap : Value
  cooldownSeconds : Value
  priority : Value
  lastScheduledAt : Option Calendar.Instant
  createdBy : Option String
  createdAt : Calendar.Instant
  deriving Inhabited

namespace StoredWorkflow

def encode (w : StoredWorkflow) : Value := .present [
  ("id", .uuid w.id),
  ("name", .str w.name),
  ("description", .ofOption w.description),
  ("module", .str w.module),
  ("is_enabled", .bool w.isEnabled),
  ("trigger_type", .str w.trigger),
  ("trigger_config", w.config),
  ("condition_json", w.conditions),
  ("actions_json", w.actions),
  ("halt_on_failure", .bool w.haltOnFailure),
  ("run_count_cap", w.runCountCap),
  ("cooldown_seconds", w.cooldownSeconds),
  ("priority", w.priority),
  ("last_scheduled_at", .opt .instant w.lastScheduledAt),
  ("created_by", .ofOption w.createdBy)]

/-- The workflow in use. A configuration or actions that do not count as given are none. -/
def definition (w : StoredWorkflow) : Checked Workflow :=
  Workflow.decode (.obj [
    ("id", .uuid w.id),
    ("name", .str w.name),
    ("module", .str w.module),
    ("trigger_type", .str w.trigger),
    ("trigger_config", w.config.orElse (.obj [])),
    ("conditions", w.conditions),
    ("actions", w.actions.orElse (.list [])),
    ("is_enabled", .bool w.isEnabled),
    ("halt_on_failure", .bool w.haltOnFailure),
    ("run_count_cap", w.runCountCap),
    ("cooldown_seconds", w.cooldownSeconds)])

def state (w : StoredWorkflow) : Except ShapeFault Value := do
  let actionCount ← w.actions.size
  return .obj [
    ("name", .str w.name),
    ("module", .str w.module),
    ("is_enabled", .bool w.isEnabled),
    ("trigger_type", .str w.trigger),
    ("trigger_config", w.config),
    ("conditions", w.conditions),
    ("action_count", .nat actionCount),
    ("halt_on_failure", .bool w.haltOnFailure),
    ("run_count_cap", w.runCountCap),
    ("cooldown_seconds", w.cooldownSeconds)]

end StoredWorkflow

/-- A note that something was done, by the key under which it is not done again. -/
structure Cooldown where
  id : Uuid
  endpoint : String
  key : String
  response : Option String
  deriving DecidableEq, Inhabited

namespace Cooldown

def workflowEndpoint : String := "automation.workflow.cooldown"

def workflowText (workflow : Option Uuid) : String := (workflow.map Uuid.text).getD "None"

def keyOf (workflow : Option Uuid) (record : Uuid) (period : Int) : String :=
  workflowText workflow ++ ":" ++ record.text ++ ":" ++ toString period

def responseOf (workflow : Option Uuid) (record : Uuid) : Value :=
  .obj [("workflow_id", .str (workflowText workflow)), ("record_id", .uuid record)]

def ofWorkflow (id : Uuid) (workflow : Option Uuid) (record : Uuid) (period : Int) : Cooldown where
  id := id
  endpoint := workflowEndpoint
  key := keyOf workflow record period
  response := some (Json.write (responseOf workflow record))

def clashes (a b : Cooldown) : Bool := a.endpoint = b.endpoint && a.key = b.key

def encode (c : Cooldown) : Value := .present [
  ("id", .uuid c.id),
  ("endpoint", .str c.endpoint),
  ("key", .str c.key),
  ("response_json", .ofOption c.response)]

end Cooldown

end RecordFlow
