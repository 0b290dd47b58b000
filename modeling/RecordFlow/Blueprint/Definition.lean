import RecordFlow.Action.Decode
import RecordFlow.Action.Encode
import RecordFlow.Value.Order
import RecordFlow.Workflow.Definition

/-! # Blueprint definitions

A blueprint is a graph of stages. A transition leads to another stage; it may ask for a condition,
for fields that are filled, and for an approval.
-/
namespace RecordFlow
open Schema

structure FieldRequirement where
  field : String
  label : Option String
  condition : Option Condition
  deriving Inhabited

namespace FieldRequirement

def decode : Decoder FieldRequirement := object fun f => FieldRequirement.mk
  <$> required f "field" nonEmpty
  <*> optional f "label" none (nullable string)
  <*> optional f "when" none Condition.parse

def encode (r : FieldRequirement) : Value := .obj [
  ("field", .str r.field),
  ("label", .ofOption r.label),
  ("when", Condition.encode? r.condition)]

def decodeShort : Decoder FieldRequirement
  | .str s => decode (.obj [("field", .str s)])
  | v => decode v

end FieldRequirement

structure Transition where
  toStage : String
  name : Option String
  requiredFields : List FieldRequirement
  condition : Option Condition
  requiresApproval : Bool
  approvalProcess : Option Uuid
  actions : List Action
  deriving Inhabited

namespace Transition

def decode : Decoder Transition := object fun f =>
  let transition := Transition.mk
    <$> required f "to_stage" nonEmpty
    <*> optional f "name" none (nullable string)
    <*> optional f "required_fields" [] (listOf FieldRequirement.decodeShort)
    <*> optional f "condition" none Condition.parse
    <*> optional f "requires_approval" false bool
    <*> optional f "approval_process_id" none (nullable uuid)
    <*> optional f "actions" [] decodeActions
  transition.andThen fun t =>
    obey t (if t.requiresApproval && t.approvalProcess.isNone then some .approvalProcess else none)

def encode (t : Transition) : Value := .obj [
  ("to_stage", .str t.toStage),
  ("name", .ofOption t.name),
  ("required_fields", .list (t.requiredFields.map FieldRequirement.encode)),
  ("condition", Condition.encode? t.condition),
  ("requires_approval", .bool t.requiresApproval),
  ("approval_process_id", .opt .uuid t.approvalProcess),
  ("actions", encodeActions t.actions)]

end Transition

structure Stage where
  key : String
  name : Option String
  transitions : List Transition
  deriving Inhabited

namespace Stage

def decode : Decoder Stage := object fun f => Stage.mk
  <$> required f "key" nonEmpty
  <*> optional f "name" none (nullable string)
  <*> optional f "transitions" [] (listOf Transition.decode)

def encode (s : Stage) : Value := .obj [
  ("key", .str s.key),
  ("name", .ofOption s.name),
  ("transitions", .list (s.transitions.map Transition.encode))]

end Stage

structure BlueprintDraft where
  name : String
  module : String
  isEnabled : Bool
  stages : List Stage
  deriving Inhabited

namespace BlueprintDraft

def unknownTarget? (stages : List Stage) : Option Rule :=
  let keys := stages.map Stage.key
  let edges := stages.flatMap fun s => s.transitions.map fun t => (s.key, t.toStage)
  (edges.find? fun e => !keys.contains e.2).map fun e => .unknownStage e.1 e.2

def broken? (stages : List Stage) : Option Rule :=
  if (stages.map Stage.key).Nodup then unknownTarget? stages else some .stageKeys

def decode : Decoder BlueprintDraft := object fun f =>
  let draft := BlueprintDraft.mk
    <$> required f "name" nonEmpty
    <*> required f "module" nonEmpty
    <*> optional f "is_enabled" true bool
    <*> required f "stages" (nonEmptyListOf Stage.decode)
  draft.andThen fun d => obey d (broken? d.stages)

def encode (d : BlueprintDraft) : Value := .obj [
  ("name", .str d.name),
  ("module", .str d.module),
  ("is_enabled", .bool d.isEnabled),
  ("stages", .list (d.stages.map Stage.encode))]

end BlueprintDraft

structure Blueprint where
  id : Option Uuid
  name : String
  module : String
  isEnabled : Bool
  stages : List Stage
  deriving Inhabited

namespace Blueprint

def decode : Decoder Blueprint := object fun f => Blueprint.mk
  <$> optional f "id" none (nullable uuid)
  <*> required f "name" string
  <*> required f "module" string
  <*> optional f "is_enabled" true bool
  <*> required f "stages" (listOf Stage.decode)

def encode (b : Blueprint) : Value := .obj [
  ("id", .opt .uuid b.id),
  ("name", .str b.name),
  ("module", .str b.module),
  ("is_enabled", .bool b.isEnabled),
  ("stages", .list (b.stages.map Stage.encode))]

def findTransition (b : Blueprint) (from_ : Value) (to_ : String) : Option Transition :=
  (b.stages.filter fun s => from_.same (.str s.key)).findSome? fun s =>
    s.transitions.find? fun t => t.toStage = to_

end Blueprint

end RecordFlow

/-! ## Stored blueprints and changes of stage -/
namespace RecordFlow
open Schema

structure StoredBlueprint where
  id : Uuid
  name : String
  module : String
  isEnabled : Bool
  stages : Value
  createdAt : Calendar.Instant
  deriving Inhabited

namespace StoredBlueprint

def encode (b : StoredBlueprint) : Value := .present [
  ("id", .uuid b.id),
  ("name", .str b.name),
  ("module", .str b.module),
  ("is_enabled", .bool b.isEnabled),
  ("stages_json", b.stages)]

def definition (b : StoredBlueprint) : Checked Blueprint :=
  (Blueprint.mk (some b.id) b.name b.module b.isEnabled)
    <$> (listOf Stage.decode b.stages).under (.field "stages")

end StoredBlueprint

structure StageChange where
  id : Uuid
  blueprint : Uuid
  record : Uuid
  fromStage : Option String
  toStage : String
  changedBy : Option String
  approval : Option Uuid
  run : Option Uuid
  deriving DecidableEq, Inhabited

def StageChange.encode (c : StageChange) : Value := .present [
  ("id", .uuid c.id),
  ("blueprint_id", .uuid c.blueprint),
  ("record_id", .uuid c.record),
  ("from_stage", .ofOption c.fromStage),
  ("to_stage", .str c.toStage),
  ("changed_by", .ofOption c.changedBy),
  ("approval_id", .opt .uuid c.approval),
  ("run_id", .opt .uuid c.run)]

end RecordFlow
