import RecordFlow.Store.Access

/-! # The catalog of definitions

Drafts that passed their checks are stored as definitions, and stored workflows can be changed.
Every write to the catalog is audited and saved at once.
-/
namespace RecordFlow
open RecordFlow.Flow

def catalogued (actor entityType : String) (id : Uuid) (action : String) (after : Value) :
    Flow Unit := do
  note (.str actor) entityType id.text action .null after
  commit

namespace WorkflowDraft

def create (d : WorkflowDraft) (actor : String) : Flow StoredWorkflow := do
  let t ← now
  let w ← insert (ρ := StoredWorkflow) fun id => {
    id := id
    name := Text.strip d.name
    description := d.description
    module := Text.strip d.module
    isEnabled := d.isEnabled
    trigger := d.trigger.name
    config := .obj d.config
    conditions := Condition.encode? d.conditions
    actions := encodeActions d.actions
    haltOnFailure := d.haltOnFailure
    runCountCap := .opt .int d.runCountCap
    cooldownSeconds := .opt .int d.cooldownSeconds
    priority := .int d.priority
    lastScheduledAt := none
    createdBy := some actor
    createdAt := t }
  catalogued actor "automation.workflow" w.id "workflow.created" (← shaped w.state)
  return w

end WorkflowDraft

namespace WorkflowChange

/-- What a column that needs a value takes from a change. -/
def needed {α : Type} (current : α) : Option (Option α) → Option α
  | none => some current
  | some given => given

/-- The workflow with a change, if no column that needs a value is set to null. -/
def applied? (c : WorkflowChange) (w : StoredWorkflow) : Option StoredWorkflow := do
  let name ← needed w.name c.name
  let isEnabled ← needed w.isEnabled c.isEnabled
  let haltOnFailure ← needed w.haltOnFailure c.haltOnFailure
  let priority ← needed w.priority (c.priority.map (·.map .int))
  return { w with
    name := name
    description := c.description.getD w.description
    isEnabled := isEnabled
    config := (c.config.map (.opt .obj)).getD w.config
    conditions := (c.conditions.map Condition.encode?).getD w.conditions
    actions := (c.actions.map (.opt encodeActions)).getD w.actions
    haltOnFailure := haltOnFailure
    runCountCap := (c.runCountCap.map (.opt .int)).getD w.runCountCap
    cooldownSeconds := (c.cooldownSeconds.map (.opt .int)).getD w.cooldownSeconds
    priority := priority }

def apply (c : WorkflowChange) (id : Uuid) (actor : String) : Flow StoredWorkflow := do
  let w ← fetch StoredWorkflow id
  let before ← shaped w.state
  match c.applied? w with
  | none => throw .constraint
  | some changed =>
    store changed
    let after ← shaped changed.state
    note (.str actor) "automation.workflow" id.text "workflow.updated" before after
    commit
    return changed

end WorkflowChange

namespace StoredWorkflow

def list (module : Option String) : Flow (List StoredWorkflow) := do
  let rows := (← all StoredWorkflow).filter fun w => module.all fun m => m.isEmpty || w.module = m
  return sorted (fun a b => decide (b.createdAt ≤ a.createdAt)) rows

end StoredWorkflow

namespace RuleDraft

def config (d : RuleDraft) : Value := .present [
  ("owner_id", .ofOption (d.ownerId.filter (!·.isEmpty))),
  ("fallback_owner_id", .ofOption (d.fallbackOwnerId.filter (!·.isEmpty)))]

def create (d : RuleDraft) (actor : String) : Flow AssignmentRule := do
  let r ← insert (ρ := AssignmentRule) fun id => {
    id := id
    name := Text.strip d.name
    module := d.module
    strategy := d.strategy.name
    candidates := .list (d.candidates.map Candidate.encode)
    config := d.config
    cursor := 0
    version := 1
    isEnabled := d.isEnabled }
  catalogued actor "automation.assignment_rule" r.id "assignment_rule.created" (.obj [
    ("name", .str r.name),
    ("strategy", .str r.strategy),
    ("candidate_count", .nat d.candidates.length)])
  return r

end RuleDraft

namespace CadenceDraft

def create (d : CadenceDraft) (actor : String) : Flow Cadence := do
  let c ← insert (ρ := Cadence) fun id => {
    id := id
    name := Text.strip d.name
    description := d.description
    module := d.module
    isEnabled := d.isEnabled
    steps := .list (d.steps.map CadenceStep.encode)
    exitCondition := Condition.encode? d.exitCondition }
  catalogued actor "automation.cadence" c.id "cadence.created"
    (.obj [("name", .str c.name), ("step_count", .nat d.steps.length)])
  return c

end CadenceDraft

namespace BlueprintDraft

def create (d : BlueprintDraft) (actor : String) : Flow StoredBlueprint := do
  let t ← now
  let b ← insert (ρ := StoredBlueprint) fun id => {
    id := id
    name := Text.strip d.name
    module := Text.strip d.module
    isEnabled := d.isEnabled
    stages := .list (d.stages.map Stage.encode)
    createdAt := t }
  catalogued actor "automation.blueprint" b.id "blueprint.created" (.obj [
    ("name", .str b.name),
    ("module", .str b.module),
    ("stages", .strings (d.stages.map Stage.key))])
  return b

end BlueprintDraft

namespace ProcessDraft

def create (d : ProcessDraft) (actor : String) : Flow ApprovalProcess := do
  let p ← insert (ρ := ApprovalProcess) fun id => {
    id := id
    name := Text.strip d.name
    module := d.module
    isEnabled := d.isEnabled
    steps := .list (d.steps.map ApprovalStep.encode)
    onApprove := encodeActions d.onApprove
    onReject := encodeActions d.onReject }
  catalogued actor "automation.approval_process" p.id "approval_process.created"
    (.obj [("name", .str p.name), ("step_count", .nat d.steps.length)])
  return p

end ProcessDraft

end RecordFlow
