import RecordFlow.Proofs.Condition.Grammar
import RecordFlow.Proofs.Schema.Drafts

/-! # Definitions that are read back

A definition is stored in written form, and read whenever it is used. What is read then is what its
draft says: a workflow has the conditions and actions of the draft, a cadence the steps and the exit
condition, a rule the candidates, a blueprint the stages, and a process the steps and the actions
that follow a verdict.
-/
namespace RecordFlow
open RecordFlow.Flow Schema

/-- A definition that is inserted and catalogued is among the rows of its table. -/
theorem catalogued_ends {ρ : Type} [Stored ρ]
    (hrows : ∀ (rows : List ρ) (t : Tables), Stored.rows (Stored.setRows rows t) = rows)
    (build : Uuid → ρ) (actor entityType action : String) (state : ρ → Value) (w : World) :
    Ends (do
        let row ← insert build
        catalogued actor entityType (Stored.id row) action (state row)
        return row : Flow ρ) w
      (fun row v => row = build ((Stored.name ρ).rowId (w.nextNumber (Stored.name ρ)))
        ∧ row ∈ Stored.rows v.tables)
      fun _ _ => True := by
  refine (insert_ends build w).bind (fun _ _ _ => trivial) ?_
  rintro row v - ⟨hrow, rfl⟩
  refine .of_ok rfl ⟨hrow, ?_⟩
  have stored : row ∈ Stored.rows (Stored.setRows (Stored.rows w.tables ++ [row]) w.tables) := by
    rw [hrows]
    exact List.mem_append_right _ (List.mem_singleton_self row)
  exact stored

/-! ## What a stored definition says -/

/-- A stored workflow is used with the conditions and the actions of a draft. Its identifier is read
with the rest, as one of 128 bits. -/
structure WorkflowDraft.IsKept (d : WorkflowDraft) (row : StoredWorkflow) : Prop where
  conditions : Condition.parse row.conditions = .valid d.conditions
  actions : storedActions row.actions = .valid d.actions
  definition : row.id.IsShort → ∃ used, row.definition = .valid used
    ∧ used.conditions = d.conditions ∧ used.actions = d.actions

structure CadenceDraft.IsKept (d : CadenceDraft) (row : Cadence) : Prop where
  steps : storedCadenceSteps row.steps = .valid d.steps
  exitCondition : Condition.parse row.exitCondition = .valid d.exitCondition

def RuleDraft.IsKept (d : RuleDraft) (row : AssignmentRule) : Prop :=
  ∃ items, row.candidates.items = .ok items
    ∧ AssignmentRule.readCandidates items = .valid d.candidates

def BlueprintDraft.IsKept (d : BlueprintDraft) (row : StoredBlueprint) : Prop :=
  ∃ used, row.definition = .valid used ∧ used.stages = d.stages

structure ProcessDraft.IsKept (d : ProcessDraft) (row : ApprovalProcess) : Prop where
  steps : storedApprovalSteps row.steps = .valid d.steps
  onApprove : storedActions row.onApprove = .valid d.onApprove
  onReject : storedActions row.onReject = .valid d.onReject

/-! ## What is stored of a draft -/

section Creation
variable (actor : String) (w : World)

theorem WorkflowDraft.IsRead.kept {d : WorkflowDraft} (h : d.IsRead) {row : StoredWorkflow}
    (hfills : d.Fills row) : d.IsKept row := by
  have conditions : Condition.parse row.conditions = .valid d.conditions := by
    rw [hfills.conditions, h.conditions]
  have actions : storedActions row.actions = .valid d.actions := by
    rw [hfills.actions, h.actions]
  refine ⟨conditions, actions, fun hid => ?_⟩
  obtain ⟨used, hused, -, hconditions, hactions⟩ := (h.stored hfills).definition hid
  rw [conditions] at hconditions
  rw [actions] at hactions
  exact ⟨used, hused, (Checked.valid.inj hconditions).symm, (Checked.valid.inj hactions).symm⟩

theorem WorkflowDraft.IsRead.create {d : WorkflowDraft} (h : d.IsRead) :
    Ends (d.create actor) w (fun row v => row ∈ v.tables.workflows ∧ d.IsKept row)
      fun _ _ => True := by
  refine (d.create_ends actor w).mono (fun row v adds => ?_) fun _ _ _ => trivial
  refine ⟨?_, h.kept adds.fills⟩
  rw [adds.tables]
  exact List.mem_append_right _ (List.mem_singleton_self row)

theorem CadenceDraft.IsRead.create {d : CadenceDraft} (h : d.IsRead) :
    Ends (d.create actor) w (fun row v => row ∈ v.tables.cadences ∧ d.IsKept row)
      fun _ _ => True := by
  refine (catalogued_ends (fun _ _ => rfl) _ _ _ _ _ w).mono ?_ fun _ _ h => h
  rintro row v ⟨rfl, hstored⟩
  refine ⟨hstored, ?_, h.exitCondition⟩
  rw [storedCadenceSteps, orElse_list]
  exact listOf_of_nonEmptyListOf h.steps

theorem readCandidates_map {candidates : List Candidate}
    (h : ∀ c ∈ candidates, Candidate.decode c.encode = .valid c) :
    AssignmentRule.readCandidates (candidates.map Candidate.encode) = .valid candidates := by
  induction candidates with
  | nil => rfl
  | cons c rest ih =>
    obtain ⟨hc, hrest⟩ := List.forall_mem_cons.mp h
    rw [List.map_cons, AssignmentRule.readCandidates, hc, Checked.andThen_valid, ih hrest]
    rfl

theorem items_list (items : List Value) : (Value.list items).items = .ok items := by
  cases items <;> rfl

theorem RuleDraft.IsRead.create {d : RuleDraft} (h : d.IsRead) :
    Ends (d.create actor) w (fun row v => row ∈ v.tables.rules ∧ d.IsKept row)
      fun _ _ => True := by
  refine (catalogued_ends (fun _ _ => rfl) _ _ _ _ _ w).mono ?_ fun _ _ h => h
  rintro row v ⟨rfl, hstored⟩
  exact ⟨hstored, _, items_list _, readCandidates_map (decode_of_listOf h.candidates)⟩

theorem BlueprintDraft.IsRead.kept {d : BlueprintDraft} (h : d.IsRead) {row : StoredBlueprint}
    (hrow : row.stages = .list (d.stages.map Stage.encode)) : d.IsKept row := by
  refine ⟨⟨some row.id, row.name, row.module, row.isEnabled, d.stages⟩, ?_, rfl⟩
  have stages : listOf Stage.decode row.stages = .valid d.stages := by
    rw [hrow]
    exact listOf_of_nonEmptyListOf h.stages
  exact Checked.map_eq_valid.mpr ⟨d.stages, Checked.under_eq_valid.mpr stages, rfl⟩

theorem BlueprintDraft.IsRead.create {d : BlueprintDraft} (h : d.IsRead) :
    Ends (d.create actor) w (fun row v => row ∈ v.tables.blueprints ∧ d.IsKept row)
      fun _ _ => True := by
  refine .step (a := w.clock.wall) (t := w) rfl ?_
  refine (catalogued_ends (fun _ _ => rfl) _ _ _ _ _ w).mono ?_ fun _ _ h => h
  rintro row v ⟨rfl, hstored⟩
  exact ⟨hstored, h.kept rfl⟩

theorem ProcessDraft.IsRead.create {d : ProcessDraft} (h : d.IsRead) :
    Ends (d.create actor) w (fun row v => row ∈ v.tables.processes ∧ d.IsKept row)
      fun _ _ => True := by
  refine (catalogued_ends (fun _ _ => rfl) _ _ _ _ _ w).mono ?_ fun _ _ h => h
  rintro row v ⟨rfl, hstored⟩
  refine ⟨hstored, ?_, storedActions_encodeActions h.onApprove,
    storedActions_encodeActions h.onReject⟩
  rw [storedApprovalSteps, orElse_list]
  exact listOf_of_nonEmptyListOf h.steps

end Creation

end RecordFlow
