import RecordFlow.Approval.Act
import RecordFlow.Proofs.Action.Incidental
import RecordFlow.Proofs.Run.Row

/-! # What happens to approvals

Opening a step, entering an action and claiming a version write to approvals and their entries, and
otherwise only happen beside the runs. Nothing of it is saved by itself.
-/
namespace RecordFlow
open RecordFlow.Flow
variable {α : Type}

/-- The world after something that happened to approvals and beside the runs. -/
structure Filing (w v : World) : Prop where
  saved : v.saved = w.saved
  runs : v.tables.runs = w.tables.runs
  records : v.tables.records = w.tables.records
  ledger : { v.tables.ledger with
    approvals := w.tables.approvals, entries := w.tables.approvalEntries } = w.tables.ledger
  numbers : ∀ t, w.nextNumber t ≤ v.nextNumber t
  rivals : v.rivalWrites ≤ w.rivalWrites

namespace Filing
variable {w v u : World}

theorem refl (w : World) : Filing w w := ⟨rfl, rfl, rfl, rfl, fun _ => Nat.le_refl _, Nat.le_refl _⟩

theorem trans (h : Filing w v) (h' : Filing v u) : Filing w u where
  saved := h'.saved.trans h.saved
  runs := h'.runs.trans h.runs
  records := h'.records.trans h.records
  ledger := by rw [← h.ledger, ← h'.ledger]
  numbers t := Nat.le_trans (h.numbers t) (h'.numbers t)
  rivals := Nat.le_trans h'.rivals h.rivals

instance : IsPreorder World Filing where
  refl := refl
  trans _ _ _ := trans

theorem of_beside (h : Beside false w v) : Filing w v where
  saved := h.saved
  runs := h.runs
  records := h.records rfl
  ledger := by rw [h.ledger]; rfl
  numbers := h.numbers
  rivals := h.rivals

theorem workflows (h : Filing w v) : v.tables.workflows = w.tables.workflows :=
  congrArg Ledger.workflows h.ledger

theorem blueprints (h : Filing w v) : v.tables.blueprints = w.tables.blueprints :=
  congrArg Ledger.blueprints h.ledger

theorem stageChanges (h : Filing w v) : v.tables.stageChanges = w.tables.stageChanges :=
  congrArg Ledger.stageChanges h.ledger

theorem processes (h : Filing w v) : v.tables.processes = w.tables.processes :=
  congrArg Ledger.processes h.ledger

theorem runsFree (h : Filing w v) (hw : w.RunsFree) : v.RunsFree := fun n hn r hr =>
  hw n (Nat.le_trans (h.numbers .run) hn) r (h.runs ▸ hr)

end Filing

instance : Lenient Filing where
  numbered w t := .of_beside (Lenient.numbered w t)
  unstored w v h hnotes := .of_beside (Lenient.unstored w v h hnotes)

instance {ρ : Type} [Stored ρ] [Indifferent (Beside false) ρ] : Indifferent Filing ρ where
  setRows rows w := .of_beside (Indifferent.setRows rows w)

instance : Indifferent Filing Approval :=
  ⟨fun _ _ => ⟨rfl, rfl, rfl, rfl, fun _ => Nat.le_refl _, Nat.le_refl _⟩⟩

instance : Indifferent Filing ApprovalEntry :=
  ⟨fun _ _ => ⟨rfl, rfl, rfl, rfl, fun _ => Nat.le_refl _, Nat.le_refl _⟩⟩

abbrev Files (part : Flow α) : Prop := Incidental Filing part

theorem Incidental.files {part : Flow α} (h : Incidental (Beside false) part) : Files part :=
  h.mono (fun _ h => h) fun _ _ h => .of_beside h

/-! ## Steps of approvals -/

section Steps
variable {R : World → World → Prop} [Lenient R]

theorem incidental_enter [Indifferent R ApprovalEntry] (a : Approval) (actor : Option String)
    (action : String) (comment : Option String) : Incidental R (a.enter actor action comment) :=
  .bind (incidental_insert _) fun _ => .pure _

theorem incidental_claim [Indifferent R Approval] (a : Approval) : Incidental R a.claim := by
  unfold Approval.claim
  exact .bind (incidental_swap _ _ _) fun swapped => .ite (.pure _) (.pure _)

theorem incidental_approversFor [Indifferent R AssignmentRule] (s : ApprovalStep)
    (record : Record) : Incidental R (s.approversFor record) := by
  have given (rule : Uuid) : Incidental R (do
      return givenText (← resolveAssignment rule record true).owner) :=
    .bind (incidental_resolveAssignment _ _ _) fun _ => .pure _
  unfold ApprovalStep.approversFor
  cases s.kind with
  | user => exact .pure _
  | role => exact .pure _
  | manager => exact .pure _
  | recordOwner => exact .pure _
  | assignmentRule =>
    dsimp only
    cases Uuid.read (s.value.getD "None") with
    | ok id => exact .bind (.pure id) given
    | error cause => exact .bind (.throw rfl) given

theorem incidental_invite [Indifferent R Message] (a : Approval) (s : ApprovalStep)
    (record : Record) (approvers : List String) :
    Incidental R (a.invite s record approvers) := by
  unfold Approval.invite
  refine .bind (.forIn _ (fun approver _ => ?_) _ _) fun _ => .pure _
  exact .bind (incidental_dispatch _ _) fun _ => .pure _

theorem incidental_auditApproval {a : Approval} {action : String} {before : Option Fields}
    {actor : Option String} (h : action ≠ "workflow.blocked") :
    Incidental R (a.audit action before actor) :=
  incidental_note (by decide) (.inl h)

variable [Indifferent R Approval] [Indifferent R AssignmentRule] [Indifferent R Message]

theorem incidental_openApprovalStep (a : Approval) (steps : List ApprovalStep) (record : Record) :
    Incidental R (a.openStep steps record) := by
  unfold Approval.openStep
  refine .bind (.stepAt passed _ _) fun s => .bind (incidental_approversFor s record) fun _ => ?_
  refine .bind (.shaped passed _) fun named => .bind .now fun _ => ?_
  refine .bind (.inTime passed _) fun _ => .bind (incidental_store _) fun _ => ?_
  exact .bind (incidental_invite _ _ _ _) fun _ => .pure _

theorem incidental_submit [Indifferent R ApprovalEntry] (process record : Uuid)
    (requestedBy : Option String) (about : Fields) :
    Incidental R (Approval.submit process record requestedBy about) := by
  unfold Approval.submit
  refine .bind (.fetch passed ApprovalProcess process) fun p => .guarded rfl ?_
  refine .bind (.recordFetch passed record) fun r => .bind (incidental_insert _) fun a => ?_
  refine .bind (.valid passed _) fun steps => ?_
  refine .bind (incidental_openApprovalStep _ _ _) fun opened => ?_
  refine .bind (incidental_enter _ _ _ _) fun _ => ?_
  exact .bind (incidental_auditApproval (by decide)) fun _ => .pure _

end Steps

end RecordFlow
