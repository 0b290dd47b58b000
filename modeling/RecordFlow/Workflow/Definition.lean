import RecordFlow.Action.Decode
import RecordFlow.Action.Encode

/-! # Workflow definitions

A workflow belongs to a module of records and runs its actions when its trigger fires and its
conditions hold. A draft is a definition as it is submitted; a definition that is in use has the
identifier under which it is stored.
-/
namespace RecordFlow
open Schema

inductive Trigger where
  | onCreate
  | onUpdate
  | onFieldChange
  | scheduled
  | manual
  deriving DecidableEq, Inhabited

namespace Trigger

def table : List (String × Trigger) := [
  ("on_create", .onCreate), ("on_update", .onUpdate), ("on_update_field_changed", .onFieldChange),
  ("scheduled", .scheduled), ("manual", .manual)]

def name (t : Trigger) : String := nameIn table t

end Trigger

structure WorkflowDraft where
  name : String
  description : Option String
  module : String
  isEnabled : Bool
  trigger : Trigger
  config : Fields
  conditions : Option Condition
  actions : List Action
  haltOnFailure : Bool
  runCountCap : Option Int
  cooldownSeconds : Option Int
  priority : Int
  deriving Inhabited

structure RawPlan where
  conditions : Value
  actions : List Fields

def RawPlan.read (p : RawPlan) : Checked (Option Condition × List Action) :=
  (Condition.parse p.conditions).andThen fun conditions =>
    (decodeActions (.list (p.actions.map .obj))).map fun actions => (conditions, actions)

def watchFieldsInOrder (config : Fields) : Bool :=
  match config.getD "watch_fields" with
  | .null => true
  | .list items => items.all fun v => match v with
    | .str s => !s.isEmpty
    | _ => false
  | _ => false

def intervalInOrder (config : Fields) : Bool :=
  match config.getD "interval_minutes" with
  | .null => true
  | .int n => 1 ≤ n
  | .bool b => b
  | _ => false

def configRule? (config : Fields) : Option Rule :=
  if !watchFieldsInOrder config then some .watchFields
  else if !intervalInOrder config then some .interval
  else none

def obey {α : Type} (a : α) : Option Rule → Checked α
  | none => .valid a
  | some rule => .fail (.rule rule)

namespace WorkflowDraft

def decodeRaw (f : Fields) : Checked (RawPlan × WorkflowDraft) :=
  (fun name description module isEnabled trigger config conditions actions halt cap cooldown
      priority =>
    (⟨conditions, actions⟩,
      ⟨name, description, module, isEnabled, trigger, config, none, [], halt, cap, cooldown,
        priority⟩))
    <$> required f "name" nonEmpty
    <*> optional f "description" none (nullable string)
    <*> required f "module" nonEmpty
    <*> optional f "is_enabled" true bool
    <*> required f "trigger_type" (oneOf Trigger.table)
    <*> optional f "trigger_config" [] dict
    <*> optional f "conditions" .null anything
    <*> optional f "actions" [] (listOf dict)
    <*> optional f "halt_on_failure" true bool
    <*> optional f "run_count_cap" none (nullable (intFrom 1))
    <*> optional f "cooldown_seconds" none (nullable (intFrom 1))
    <*> optional f "priority" 0 int

def decode : Decoder WorkflowDraft := object fun f =>
  (decodeRaw f).andThen fun (plan, draft) =>
    plan.read.andThen fun (conditions, actions) =>
      obey { draft with conditions := conditions, actions := actions } (configRule? draft.config)

def encode (d : WorkflowDraft) : Value := .obj [
  ("name", .str d.name),
  ("description", .ofOption d.description),
  ("module", .str d.module),
  ("is_enabled", .bool d.isEnabled),
  ("trigger_type", .str d.trigger.name),
  ("trigger_config", .obj d.config),
  ("conditions", Condition.encode? d.conditions),
  ("actions", encodeActions d.actions),
  ("halt_on_failure", .bool d.haltOnFailure),
  ("run_count_cap", .opt .int d.runCountCap),
  ("cooldown_seconds", .opt .int d.cooldownSeconds),
  ("priority", .int d.priority)]

end WorkflowDraft

/-- Changes to a stored workflow. A field that was not submitted is left alone; one that was
submitted may be null. -/
structure WorkflowChange where
  name : Option (Option String)
  description : Option (Option String)
  isEnabled : Option (Option Bool)
  config : Option (Option Fields)
  conditions : Option (Option Condition)
  actions : Option (Option (List Action))
  haltOnFailure : Option (Option Bool)
  runCountCap : Option (Option Int)
  cooldownSeconds : Option (Option Int)
  priority : Option (Option Int)
  deriving Inhabited

namespace WorkflowChange

/-- A field that may be left out and may be null. -/
def submitted {α : Type} (f : Fields) (key : String) (decode : Decoder α) :
    Checked (Option (Option α)) :=
  optional f key none fun v => some <$> nullable decode v

def decodeRaw (f : Fields) : Checked (RawPlan × WorkflowChange) :=
  (fun name description isEnabled config conditions actions halt cap cooldown priority =>
    (⟨conditions.getD .null, (actions.getD none).getD []⟩,
      ⟨name, description, isEnabled, config, conditions.map fun _ => none,
        actions.map (·.map fun _ => []), halt, cap, cooldown, priority⟩))
    <$> submitted f "name" string
    <*> submitted f "description" string
    <*> submitted f "is_enabled" bool
    <*> submitted f "trigger_config" dict
    <*> optional f "conditions" none (some <$> anything ·)
    <*> submitted f "actions" (listOf dict)
    <*> submitted f "halt_on_failure" bool
    <*> submitted f "run_count_cap" (intFrom 1)
    <*> submitted f "cooldown_seconds" (intFrom 1)
    <*> submitted f "priority" int

def decode : Decoder WorkflowChange := object fun f =>
  (decodeRaw f).andThen fun (plan, change) =>
    plan.read.map fun (conditions, actions) =>
      { change with
        conditions := change.conditions.map fun _ => conditions
        actions := change.actions.map (·.map fun _ => actions) }

/-- Null stands both for null and for a field that was not submitted. -/
def plain {α : Type} (encode : α → Value) (x : Option (Option α)) : Value :=
  .opt encode (x.getD none)

def encode (c : WorkflowChange) : Value := .obj [
  ("name", plain .str c.name),
  ("description", plain .str c.description),
  ("is_enabled", plain .bool c.isEnabled),
  ("trigger_config", plain .obj c.config),
  ("conditions", plain Condition.encode c.conditions),
  ("actions", plain encodeActions c.actions),
  ("halt_on_failure", plain .bool c.haltOnFailure),
  ("run_count_cap", plain .int c.runCountCap),
  ("cooldown_seconds", plain .int c.cooldownSeconds),
  ("priority", plain .int c.priority)]

end WorkflowChange

structure Workflow where
  id : Option Uuid
  name : String
  module : String
  trigger : Trigger
  config : Fields
  conditions : Option Condition
  actions : List Action
  isEnabled : Bool
  haltOnFailure : Bool
  runCountCap : Option Int
  cooldownSeconds : Option Int
  deriving Inhabited

namespace Workflow

def decode : Decoder Workflow := object fun f => Workflow.mk
  <$> optional f "id" none (nullable uuid)
  <*> required f "name" string
  <*> required f "module" string
  <*> required f "trigger_type" (oneOf Trigger.table)
  <*> optional f "trigger_config" [] dict
  <*> optional f "conditions" none Condition.parse
  <*> optional f "actions" [] decodeActions
  <*> optional f "is_enabled" true bool
  <*> optional f "halt_on_failure" true bool
  <*> optional f "run_count_cap" none (nullable int)
  <*> optional f "cooldown_seconds" none (nullable int)

def encode (w : Workflow) : Value := .obj [
  ("id", .opt .uuid w.id),
  ("name", .str w.name),
  ("module", .str w.module),
  ("trigger_type", .str w.trigger.name),
  ("trigger_config", .obj w.config),
  ("conditions", Condition.encode? w.conditions),
  ("actions", encodeActions w.actions),
  ("is_enabled", .bool w.isEnabled),
  ("halt_on_failure", .bool w.haltOnFailure),
  ("run_count_cap", .opt .int w.runCountCap),
  ("cooldown_seconds", .opt .int w.cooldownSeconds)]

end Workflow

end RecordFlow
