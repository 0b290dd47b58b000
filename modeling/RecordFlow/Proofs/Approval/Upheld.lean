import RecordFlow.Approval.Act
import RecordFlow.Proofs.Approval.Filing
import RecordFlow.Proofs.Job.Upheld

/-! # What approvals and moves uphold

What follows a decision is carried out as runs, and so is a move. Approvals, their entries and the
history of moves are written to besides.
-/
namespace RecordFlow
open RecordFlow.Flow
variable {R : World → World → Prop}

section Decisions
variable [Abiding R]

/-! ## What follows a decision -/

namespace Approval

theorem upholds_refuse (a : Approval) (action : String) (cause : ActRefusal) :
    Upholds R (a.refuse action cause) := by
  unfold refuse
  exact .bind (Incidental.upholds (incidental_count _)) fun _ => .guarded (.pure _)

theorem upholds_succeed (a : Approval) (r : ApprovalRequest) (before : Approval) (executed : Bool)
    (move : Option MoveResult) : Upholds R (a.succeed r before executed move) := by
  unfold succeed
  refine .bind (Incidental.upholds (incidental_count _)) fun _ => ?_
  exact .bind (upholds_note (by decide)) fun _ => .pure _

theorem upholds_announceResolved (a : Approval) : Upholds R a.announceResolved :=
  Incidental.upholds (incidental_announce _ _ _)

theorem upholds_carryOutActions (a : Approval) (written : Value) (actor : String) :
    Upholds R (a.carryOutActions written actor) := by
  unfold carryOutActions
  refine .bind (.looks (.valid anyCause _)) fun actions => ?_
  cases actions with
  | nil => exact .pure _
  | cons first rest =>
    refine .bind (.looks (.recordGet? anyCause a.record)) fun found => ?_
    cases found with
    | none => exact .pure _
    | some r =>
      exact Run.upholds_fresh fun n => .bind (Abiding.starts _ _ _ rfl) fun _ => .pure _

end Approval

end Decisions

/-! ## Moves -/

theorem Blueprint.looks_resolve (ref : BlueprintRef) (module : Value) :
    Looks (Blueprint.resolve ref module) := by
  unfold Blueprint.resolve
  split
  · exact .pure _
  · refine .bind (.fetch anyCause StoredBlueprint _) fun row => .bind ?_ fun _ => .pure _
    generalize row.definition = defined
    exact .valid anyCause defined
  · unfold Blueprint.ofModule?
    refine .bind (.all StoredBlueprint) fun rows => ?_
    dsimp only
    split
    · exact .pure _
    · next row _ _ =>
      generalize row.definition = defined
      exact .bind (.valid anyCause defined) fun _ => .pure _

section Moves
variable [Abiding R] [Indifferent R StageChange]

namespace Blueprint

theorem upholds_recordMove (blueprint : Option Uuid) (record : Uuid) (fromStage : Value)
    (toStage : String) (actor : Option String) (approval run : Option Uuid) :
    Upholds R (recordMove blueprint record fromStage toStage actor approval run) := by
  unfold recordMove
  refine .bind (.looks (.taken anyCause _)) fun source => ?_
  refine .bind (Incidental.upholds (incidental_insertIf _ _)) fun _ => .bind upholds_commit fun _ => ?_
  refine .bind (upholds_note (by decide)) fun _ => ?_
  exact Incidental.upholds (incidental_announce _ _ _)

theorem upholds_applyMove (b : Blueprint) (t : Transition) (r : Record) (toStage : String)
    (updates : Fields) (actor : Option String) (v : Validation) (approval : Option Uuid) :
    Upholds R (b.applyMove t r toStage updates actor v approval) := by
  unfold applyMove
  refine Run.upholds_fresh fun n => .bind (Abiding.starts _ _ _ rfl) fun run => ?_
  exact .ite (.bind (upholds_recordMove _ _ _ _ _ _ _) fun _ => .pure _) (.pure _)

variable (hsubmit : ∀ process record requestedBy about, Upholds R (do
  let a ← Approval.submit process record requestedBy about
  commit
  return a))
include hsubmit

omit [Indifferent R StageChange] in
/-- A move that is submitted upholds what submitting and saving does. -/
theorem upholds_requestMove (b : Blueprint) (t : Transition) (r : Record) (toStage : String)
    (updates : Fields) (actor : Option String) (v : Validation) :
    Upholds R (b.requestMove t r toStage updates actor v) := by
  unfold requestMove
  refine .bind (.looks .wiring) fun wiring => ?_
  split
  · next process _ _ =>
    have noted (a : Approval) : Upholds R (do
        note (AuditEntry.actorName (.ofOption actor)) "crm.record" r.id.text
          "blueprint.transition_requested" (.obj [("stage", r.stage)])
          (.obj [("target_stage", .str toStage), ("approval_id", .uuid a.id)])
        return (⟨true, some v, r.stage, some toStage, true, some a.id, none, none⟩ : MoveResult)) :=
      .bind (upholds_note (by decide)) fun _ => .pure _
    have submitted := Steady.bind (hsubmit process r.id actor (b.moveContext r.stage toStage updates))
      noted
    simpa only [bind_assoc, pure_bind] using submitted
  · exact .pure _

theorem upholds_move (ref : BlueprintRef) (record : Uuid) (toStage : String) (updates : Fields)
    (actor : Option String) : Upholds R (move ref record toStage updates actor) := by
  unfold move
  refine .bind (.looks (.recordGet? anyCause record)) fun found => ?_
  cases found with
  | none => exact .pure _
  | some r =>
    refine .bind (.looks (looks_resolve ref _)) fun resolved => ?_
    cases resolved with
    | none => exact .pure _
    | some b =>
      refine .ite (.pure _) ?_
      split
      · exact .pure _
      · exact .ite (upholds_requestMove hsubmit _ _ _ _ _ _ _) (upholds_applyMove _ _ _ _ _ _ _ _)

end Blueprint

end Moves

class Aloof (R : World → World → Prop) : Prop extends Abiding R where
  approvals : Indifferent R Approval
  entries : Indifferent R ApprovalEntry
  stageChanges : Indifferent R StageChange
  blueprints : Indifferent R StoredBlueprint
  processes : Indifferent R ApprovalProcess

attribute [instance] Aloof.approvals Aloof.entries Aloof.stageChanges Aloof.blueprints
  Aloof.processes

variable [Aloof R]

namespace Approval

theorem upholds_setExecuted (id : Uuid) (executed : Bool) (test : Approval → Bool) :
    Upholds R (setExecuted id executed test) :=
  .bind (Incidental.upholds (incidental_updateWhere _ _)) fun _ => .bind upholds_commit fun _ =>
    .pure _

theorem upholds_executeMove (id : Uuid) (actor : Option String) :
    Upholds R (executeMove id actor) := by
  have refused (about : Fields) (error : String) : Upholds R (refuseMove id about error) :=
    .bind (.looks (.valid anyCause _)) fun _ => .pure _
  have carried (about : Fields) (b : Blueprint) (t : Transition) (r : Record) :
      Upholds R (carryOutMove id about b t r actor) := by
    unfold carryOutMove
    refine .bind (.looks (.shaped anyCause _)) fun updates => ?_
    refine .bind (.looks (.readable anyCause _)) fun v => .ite (.pure _) ?_
    refine .bind (upholds_setExecuted _ _ _) fun claimed => .ite (.pure _) ?_
    refine .bind (Blueprint.upholds_applyMove _ _ _ _ _ _ _ _) fun m => ?_
    exact .ite (.bind (upholds_setExecuted _ _ _) fun _ => .pure _) (.pure _)
  unfold executeMove
  refine .bind (.looks (.find? Approval id)) fun found => ?_
  cases found with
  | none => exact .pure _
  | some a =>
    refine .bind (.looks (.shaped anyCause _)) fun about => ?_
    refine .ite (refused about _) ?_
    refine .ite (refused about _) ?_
    refine .ite (refused about _) ?_
    refine .bind (.looks (.recordGet? anyCause a.record)) fun found => ?_
    cases found with
    | none => exact refused _ _
    | some r =>
      refine .ite (refused about _) (.bind (upholds_orThrow _) fun blueprint => ?_)
      refine .bind (.looks (Blueprint.looks_resolve _ _)) fun resolved => ?_
      cases resolved with
      | none => exact refused _ _
      | some b =>
        dsimp only
        split
        · exact refused _ _
        · exact carried _ _ _ _

/-! ## Decisions -/

theorem upholds_cancel (a : Approval) (r : ApprovalRequest) : Upholds R (a.cancel r) := by
  unfold cancel
  refine .bind (.looks (.shaped anyCause _)) fun cause => ?_
  cases cause with
  | some cause => exact upholds_refuse _ _ _
  | none =>
    refine .bind (Incidental.upholds (incidental_claim a)) fun claimed => ?_
    cases claimed with
    | none => exact upholds_refuse _ _ _
    | some claimed =>
      refine .bind (.looks .now) fun t => .bind (Incidental.upholds (incidental_store _)) fun _ => ?_
      refine .bind (Incidental.upholds (incidental_enter _ _ _ _)) fun _ => ?_
      refine .bind upholds_commit fun _ => .bind (upholds_announceResolved _) fun _ => ?_
      exact upholds_succeed _ _ _ _ _

theorem upholds_requestChanges (a claimed : Approval) (r : ApprovalRequest) :
    Upholds R (a.requestChanges claimed r) :=
  .bind (Incidental.upholds (incidental_store _)) fun _ => .bind upholds_commit fun _ =>
    upholds_succeed _ _ _ _ _

theorem upholds_reject (a claimed : Approval) (p : ApprovalProcess) (r : ApprovalRequest) :
    Upholds R (a.reject claimed p r) := by
  unfold reject
  refine .bind (.looks .now) fun t => .bind (Incidental.upholds (incidental_store _)) fun _ => ?_
  refine .bind upholds_commit fun _ => .bind (upholds_carryOutActions _ _ _) fun executed => ?_
  exact .bind (upholds_announceResolved _) fun _ => upholds_succeed _ _ _ _ _

theorem upholds_approveStep (a claimed : Approval) (steps : List ApprovalStep)
    (r : ApprovalRequest) : Upholds R (a.approveStep claimed steps r) := by
  unfold approveStep
  refine .bind (.looks (.recordFetch anyCause _)) fun record => ?_
  refine .bind (Incidental.upholds (incidental_openApprovalStep _ _ _)) fun opened => ?_
  exact .bind upholds_commit fun _ => upholds_succeed _ _ _ _ _

theorem upholds_approveLast (a claimed : Approval) (p : ApprovalProcess) (r : ApprovalRequest) :
    Upholds R (a.approveLast claimed p r) := by
  have finished (move : Option MoveResult) : Upholds R (do
      let current ← fetch Approval a.id
      let executed ← current.carryOutActions p.onApprove r.actorId
      current.announceResolved
      current.succeed r a (executed || move.any (·.success)) move) := by
    refine .bind (.looks (.fetch anyCause Approval a.id)) fun current => ?_
    refine .bind (upholds_carryOutActions _ _ _) fun executed => ?_
    exact .bind (upholds_announceResolved _) fun _ => upholds_succeed _ _ _ _ _
  unfold approveLast
  refine .bind (.looks .now) fun t => .bind (Incidental.upholds (incidental_store _)) fun _ => ?_
  refine .bind upholds_commit fun _ => .bind (.looks (.shaped anyCause _)) fun isMove => ?_
  refine .bind (.looks .wiring) fun wiring => .ite ?_ ?_
  · exact .bind (.map _ (upholds_executeMove _ _)) finished
  · exact .bind (.pure _) finished

theorem upholds_act (a : Approval) (r : ApprovalRequest) : Upholds R (a.act r) := by
  have mayRefuse (steps : List ApprovalStep) : Looks (a.refusal? steps r) := by
    unfold refusal?
    refine .ite (.pure _) (.bind (.shaped anyCause _) fun isApprover => .ite (.pure _) ?_)
    exact .ite (.pure _) (.bind (.stepAt anyCause _ _) fun _ => .pure _)
  unfold act
  refine .bind (.looks (.fetch anyCause ApprovalProcess _)) fun p => ?_
  refine .bind (.looks (.valid anyCause _)) fun steps => .ite (upholds_cancel a r) ?_
  refine .bind (.looks (mayRefuse steps)) fun cause => ?_
  cases cause with
  | some cause => exact upholds_refuse _ _ _
  | none =>
    refine .bind (Incidental.upholds (incidental_claim a)) fun claimed => ?_
    cases claimed with
    | none => exact upholds_refuse _ _ _
    | some claimed =>
      refine .bind (Incidental.upholds (incidental_enter _ _ _ _)) fun _ => ?_
      split
      · exact upholds_requestChanges _ _ _
      · exact upholds_reject _ _ _ _
      · exact .ite (upholds_approveStep _ _ _ _) (upholds_approveLast _ _ _ _)

theorem upholds_resubmit (a : Approval) (actor : String) (comment : Option String) :
    Upholds R (a.resubmit actor comment) := by
  unfold resubmit
  split
  · exact upholds_refuse _ _ _
  · refine .bind (Incidental.upholds (incidental_claim a)) fun claimed => ?_
    cases claimed with
    | none => exact upholds_refuse _ _ _
    | some claimed =>
      refine .bind (.looks (.recordFetch anyCause _)) fun record => ?_
      refine .bind (.looks (.fetch anyCause ApprovalProcess _)) fun p => ?_
      refine .bind (.looks (.valid anyCause _)) fun steps => ?_
      refine .bind (Incidental.upholds (incidental_openApprovalStep _ _ _)) fun opened => ?_
      refine .bind (Incidental.upholds (incidental_enter _ _ _ _)) fun _ => ?_
      refine .bind upholds_commit fun _ => .bind (Incidental.upholds (incidental_count _)) fun _ => ?_
      exact .bind (upholds_note (by decide)) fun _ => .pure _

theorem upholds_expire (m : Calendar.Moment) (loaded : List Approval) :
    Upholds R (expire m loaded) := by
  have one (a : Approval) : Incidental R (expireOne m.wall a) := by
    unfold expireOne
    refine .bind (incidental_claim a) fun claimed => ?_
    cases claimed with
    | none => exact .pure _
    | some claimed =>
      refine .bind (incidental_store _) fun _ => .bind (incidental_enter _ _ _ _) fun _ => ?_
      exact .bind (incidental_auditApproval (by decide)) fun _ => .pure _
  unfold expire
  refine .bind (Incidental.upholds (.filterMapM _ one _)) fun expired => ?_
  refine .bind upholds_commit fun _ => .bind (.forIn _ (fun a _ => ?_) _ _) fun _ => .pure _
  exact .bind (upholds_announceResolved a) fun _ => .pure _

end Approval

end RecordFlow
