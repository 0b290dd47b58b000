import RecordFlow.Store.Access
import RecordFlow.Store.Column

/-! # Rows by hand

An administrator may delete rows and set their columns one by one, past all rules but those of the
columns themselves: what a column does not take is refused, null where a value is needed is refused,
and so is a key that another row has. Identifiers and times are only ever taken away. When a row was
written, and its hash, are not kept, so setting them changes nothing.
-/
namespace RecordFlow
open Calendar

class Editable (ρ : Type) extends Stored ρ where
  /-- The row with a column set to a value that the column takes. -/
  set : ρ → String → Value → ρ
  /-- Whether two rows may not be there together. -/
  clashes : ρ → ρ → Bool

section
open Cell

instance : Editable StoredRecord where
  set r column v := match column with
    | "module" => { r with module := kept text r.module v }
    | "title" => { r with title := written text v }
    | "owner_id" => { r with ownerId := written text v }
    | "stage" => { r with stage := written text v }
    | "is_open" => { r with isOpen := kept flag r.isOpen v }
    | "data" => { r with data := v }
    | "created_by" => { r with createdBy := written text v }
    | "row_version" => { r with version := kept whole r.version v }
    | _ => r
  clashes _ _ := false

instance : Editable Child where
  set c column v := match column with
    | "kind" => { c with kind := kept text c.kind v }
    | "title" => { c with title := written text v }
    | "body" => { c with body := written text v }
    | "assigned_to" => { c with assignedTo := written text v }
    | "due_at" => { c with dueAt := none }
    | "status" => { c with status := kept text c.status v }
    | "payload_json" => { c with payload := v }
    | "created_by" => { c with createdBy := written text v }
    | _ => c
  clashes _ _ := false

instance : Editable StoredWorkflow where
  set w column v := match column with
    | "name" => { w with name := kept text w.name v }
    | "description" => { w with description := written text v }
    | "module" => { w with module := kept text w.module v }
    | "is_enabled" => { w with isEnabled := kept flag w.isEnabled v }
    | "trigger_type" => { w with trigger := kept text w.trigger v }
    | "trigger_config" => { w with config := v }
    | "condition_json" => { w with conditions := v }
    | "actions_json" => { w with actions := v }
    | "halt_on_failure" => { w with haltOnFailure := kept flag w.haltOnFailure v }
    | "run_count_cap" => { w with runCountCap := stated v }
    | "cooldown_seconds" => { w with cooldownSeconds := stated v }
    | "priority" => { w with priority := stated v }
    | "last_scheduled_at" => { w with lastScheduledAt := none }
    | "created_by" => { w with createdBy := written text v }
    | _ => w
  clashes _ _ := false

instance : Editable Run where
  set r column v := match column with
    | "workflow_id" => { r with workflow := none }
    | "source" => { r with source := kept text r.source v }
    | "trigger_type" => { r with trigger := kept text r.trigger v }
    | "record_id" => { r with record := none }
    | "status" => { r with status := kept text r.status v }
    | "is_dry_run" => { r with isDry := kept flag r.isDry v }
    | "actions_executed" => { r with executed := v }
    | "actions_consumed" => { r with consumed := stated v }
    | "output_json" => { r with output := v }
    | "error" => { r with error := written text v }
    | "idempotency_key" => { r with key := written text v }
    | "parent_run_id" => { r with parent := none }
    | "depth" => { r with depth := stated v }
    | "correlation_id" => { r with correlation := written text v }
    | "finished_at" => { r with finishedAt := none }
    | _ => r
  clashes := Run.clashes

instance : Editable Cooldown where
  set c column v := match column with
    | "endpoint" => { c with endpoint := kept text c.endpoint v }
    | "key" => { c with key := kept text c.key v }
    | "response_json" => { c with response := written text v }
    | _ => c
  clashes := Cooldown.clashes

instance : Editable AssignmentRule where
  set r column v := match column with
    | "name" => { r with name := kept text r.name v }
    | "module" => { r with module := written text v }
    | "strategy" => { r with strategy := kept text r.strategy v }
    | "candidates_json" => { r with candidates := v }
    | "config_json" => { r with config := v }
    | "cursor" => { r with cursor := kept whole r.cursor v }
    | "row_version" => { r with version := kept whole r.version v }
    | "is_enabled" => { r with isEnabled := kept flag r.isEnabled v }
    | _ => r
  clashes _ _ := false

instance : Editable Cadence where
  set c column v := match column with
    | "name" => { c with name := kept text c.name v }
    | "description" => { c with description := written text v }
    | "module" => { c with module := written text v }
    | "is_enabled" => { c with isEnabled := kept flag c.isEnabled v }
    | "steps_json" => { c with steps := v }
    | "exit_condition_json" => { c with exitCondition := v }
    | _ => c
  clashes _ _ := false

instance : Editable Enrollment where
  set e column v := match column with
    | "status" => { e with status := .ofName (kept text e.status.name v) }
    | "current_step_index" => { e with step := kept whole e.step v }
    | "next_step_due_at" => { e with nextStepDueAt := none }
    | "pending_job_id" => { e with pendingJob := none }
    | "enrolled_by" => { e with enrolledBy := written text v }
    | "stopped_reason" => { e with stoppedReason := written text v }
    | "completed_at" => { e with completedAt := none }
    | _ => e
  clashes _ _ := false

instance : Editable Job where
  set j column v := match column with
    | "job_type" => { j with kind := kept text j.kind v }
    | "status" => { j with status := .ofName (kept text j.status.name v) }
    | "payload_json" => { j with payload := v }
    | "attempt" => { j with attempt := kept whole j.attempt v }
    | "max_attempts" => { j with maxAttempts := kept whole j.maxAttempts v }
    | "record_id" => { j with record := none }
    | "idempotency_key" => { j with key := written text v }
    | "claimed_by" => { j with claimedBy := written text v }
    | "claimed_at" => { j with claimedAt := none }
    | "last_error" => { j with lastError := written text v }
    | "result_json" => { j with result := v }
    | "correlation_id" => { j with correlation := written text v }
    | "finished_at" => { j with finishedAt := none }
    | _ => j
  clashes := Job.clashes

instance : Editable StoredBlueprint where
  set b column v := match column with
    | "name" => { b with name := kept text b.name v }
    | "module" => { b with module := kept text b.module v }
    | "is_enabled" => { b with isEnabled := kept flag b.isEnabled v }
    | "stages_json" => { b with stages := v }
    | _ => b
  clashes _ _ := false

instance : Editable StageChange where
  set c column v := match column with
    | "from_stage" => { c with fromStage := written text v }
    | "to_stage" => { c with toStage := kept text c.toStage v }
    | "changed_by" => { c with changedBy := written text v }
    | "approval_id" => { c with approval := none }
    | "run_id" => { c with run := none }
    | _ => c
  clashes _ _ := false

instance : Editable ApprovalProcess where
  set p column v := match column with
    | "name" => { p with name := kept text p.name v }
    | "module" => { p with module := written text v }
    | "is_enabled" => { p with isEnabled := kept flag p.isEnabled v }
    | "steps_json" => { p with steps := v }
    | "on_approve_actions" => { p with onApprove := v }
    | "on_reject_actions" => { p with onReject := v }
    | _ => p
  clashes _ _ := false

instance : Editable Approval where
  set a column v := match column with
    | "status" => { a with status := .ofName (kept text a.status.name v) }
    | "current_step" => { a with step := kept whole a.step v }
    | "context_json" => { a with context := v }
    | "resolved_approvers" => { a with approvers := v }
    | "requested_by" => { a with requestedBy := written text v }
    | "resolved_by" => { a with resolvedBy := written text v }
    | "resolved_at" => { a with resolvedAt := none }
    | "expires_at" => { a with expiresAt := none }
    | "transition_executed" => { a with executed := kept flag a.executed v }
    | "row_version" => { a with version := kept whole a.version v }
    | _ => a
  clashes _ _ := false

instance : Editable ApprovalEntry where
  set e column v := match column with
    | "step_index" => { e with step := kept whole e.step v }
    | "actor_id" => { e with actor := written text v }
    | "action" => { e with action := kept text e.action v }
    | "comment" => { e with comment := written text v }
    | _ => e
  clashes _ _ := false

instance : Editable Message where
  set m column v := match column with
    | "channel" => { m with channel := kept text m.channel v }
    | "recipient" => { m with recipient := kept text m.recipient v }
    | "subject" => { m with subject := written text v }
    | "body" => { m with body := written text v }
    | "record_id" => { m with record := none }
    | "payload_json" => { m with payload := v }
    | "status" => { m with status := kept text m.status v }
    | _ => m
  clashes _ _ := false

end

/-- The columns that are to be set, if the table has them all. A write that is not dated has to set
something. -/
def TableName.columnsOf? (t : TableName) (values : Fields) : Option (List (Column × Value)) :=
  if values.isEmpty && !t.isDated then none
  else values.mapM fun f => (t.column? f.1).map fun c => (c, f.2)

/-- Whether all columns take their values. What does not fit at all is found before what is too
large. -/
def allTaken (columns : List (Column × Value)) : Except CellFault Unit := do
  let faults := columns.filterMap fun c => match c.1.kind.takes c.2 with
    | .ok _ => none
    | .error fault => some fault
  if faults.contains .unfit then throw .unfit
  if faults.contains .tooLarge then throw .tooLarge

namespace Flow

/-- Sets columns of the row with an identifier, and counts the rows that there are. -/
def edit (ρ : Type) [Editable ρ] (id : Uuid) (values : Fields) : Flow Nat := do
  match (Stored.name ρ).columnsOf? values with
  | none => throw .constraint
  | some columns =>
    taken (allTaken columns)
    match ← find? ρ id with
    | none => return 0
    | some row =>
      if columns.any fun c => c.1.refusesNull && c.2.isNull then throw .constraint
      let edited := values.foldl (fun row f => Editable.set row f.1 f.2) row
      let others := (← all ρ).filter fun r => Stored.id r ≠ id
      if others.any (Editable.clashes edited) then throw .constraint
      store edited
      return 1

def editRow (id : Uuid) (values : Fields) : TableName → Flow Nat
  | .record => edit StoredRecord id values
  | .child => edit Child id values
  | .workflow => edit StoredWorkflow id values
  | .run => edit Run id values
  | .idempotencyKey => edit Cooldown id values
  | .rule => edit AssignmentRule id values
  | .cadence => edit Cadence id values
  | .enrollment => edit Enrollment id values
  | .job => edit Job id values
  | .blueprint => edit StoredBlueprint id values
  | .stageHistory => edit StageChange id values
  | .process => edit ApprovalProcess id values
  | .approval => edit Approval id values
  | .approvalLog => edit ApprovalEntry id values
  | .message => edit Message id values

/-- Deletes the row with an identifier and nothing that refers to it, and counts it. -/
def delete (ρ : Type) [Stored ρ] (id : Uuid) : Flow Nat := do
  let (gone, kept) := (← all ρ).partition fun r => Stored.id r = id
  setAll kept
  return gone.length

def deleteRow (id : Uuid) : TableName → Flow Nat
  | .record => delete StoredRecord id
  | .child => delete Child id
  | .workflow => delete StoredWorkflow id
  | .run => delete Run id
  | .idempotencyKey => delete Cooldown id
  | .rule => delete AssignmentRule id
  | .cadence => delete Cadence id
  | .enrollment => delete Enrollment id
  | .job => delete Job id
  | .blueprint => delete StoredBlueprint id
  | .stageHistory => delete StageChange id
  | .process => delete ApprovalProcess id
  | .approval => delete Approval id
  | .approvalLog => delete ApprovalEntry id
  | .message => delete Message id

end Flow

end RecordFlow
