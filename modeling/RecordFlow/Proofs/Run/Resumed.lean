import RecordFlow.Proofs.Action.Written
import RecordFlow.Proofs.Run.Launch
import RecordFlow.Proofs.Run.Results

/-! # Runs that are resumed

A delay hands the actions that a run has left over to a job, in written form. The job reads the same
actions, and starts a run with them as long as the record is there and the workflow may be used. A
run together with all runs that go on with it therefore carries out its actions in order: none is
lost, none is done twice.
-/
namespace RecordFlow
open RecordFlow.Flow Scoped Schema

def Context.later (c : Context) (record : Record) (settings : Settings) : Context :=
  { Context.root record "delayed" 0 with
    budget := ⟨Job.givenOr (some c.budget.maxActions) settings.maxActions, c.budget.consumed⟩
    actor := c.actor
    source := if c.source.isEmpty then Context.workflowSource else c.source
    workflow := (Value.opt .uuid c.workflow).identifier?
    depth := c.depth }

namespace Workflow
open Run

theorem wholeOr_int {fields : Fields} {key : String} {n : Int}
    (h : fields.get? key = some (.int n)) (fallback : Int) :
    fields.wholeOr key fallback = .ok (Job.givenOr (some n) fallback) := by
  unfold Fields.wholeOr Fields.getD Job.givenOr
  rw [h, Option.getD_some, Value.orElse]
  by_cases hn : n = 0
  · simp [Value.isFalsy, hn, Value.whole]
  · simp [Value.isFalsy, hn, Value.whole]

theorem givenOr_zero (n : Int) : Job.givenOr (some n) 0 = n := by
  unfold Job.givenOr
  dsimp only
  split
  · next h => exact h.symm
  · rfl

theorem handedBudget_eq {fields : Fields} {most consumed : Int}
    (hmost : fields.get? "max_actions" = some (.int most))
    (hconsumed : fields.get? "actions_consumed" = some (.int consumed)) (w : World) :
    handedBudget fields w
      = .ok ⟨Job.givenOr (some most) w.settings.maxActions, consumed⟩ w := by
  unfold handedBudget
  rw [bind_ok (rfl : settings w = .ok w.settings w), wholeOr_int hmost, wholeOr_int hconsumed,
    givenOr_zero]
  rfl

theorem later_source (c : Context) :
    (((Action.delayPayload c).fields.getD "source").orElse (.str Context.workflowSource)).text
      = if c.source.isEmpty then Context.workflowSource else c.source := by
  have given : (Action.delayPayload c).fields.getD "source" = .str c.source := rfl
  rw [given, Value.orElse, Value.isFalsy]
  split
  · rfl
  · rfl

/-- The job reads the actions that the run has left, and starts a run with them. -/
theorem resumeDelayed_eq {c : Context} (hread : ∀ a ∈ c.pending, a.IsRead) {w : World}
    {record : Record} {halts : Bool}
    (hrecord : recordOf? (Action.delayPayload c) w = .ok (some record) w)
    (hhalts : haltsOf? ((Action.delayPayload c).fields.getD "workflow_id").identifier? w
      = .ok (some halts) w) :
    resumeDelayed (Action.delayPayload c) w = (do
      let r ← Run.start (c.later record w.settings) c.pending halts
      linkParent r.run ((Action.delayPayload c).fields.getD "parent_run_id").identifier?
      return outcome r) w := by
  have depth : (Action.delayPayload c).fields.wholeOr "depth" 0 = .ok c.depth := by
    rw [wholeOr_int rfl, givenOr_zero]
  have actions : storedActions ((Action.delayPayload c).fields.getD "actions") = .valid c.pending :=
    storedActions_encodeActions hread
  unfold resumeDelayed
  rw [bind_ok hrecord]
  dsimp only
  rw [bind_ok hhalts]
  dsimp only
  rw [bind_ok (handedBudget_eq rfl rfl w), depth, actions, later_source]
  rfl

end Workflow

/-- The job hands over these actions of a run that stood like this: they are what it tells, and what
it starts a run with wherever the record is there and the workflow may be used. -/
structure Job.HandsOver (j : Job) (c : Context) (left : List Action) : Prop where
  told : storedActions (j.payload.fields.getD "actions") = .valid left
  resumes : ∀ (w : World) (record : Record) (halts : Bool),
    Run.recordOf? j.payload w = .ok (some record) w →
    Workflow.haltsOf? (j.payload.fields.getD "workflow_id").identifier? w = .ok (some halts) w →
    Workflow.resumeDelayed j.payload w = (do
      let r ← Run.start (c.later record w.settings) left halts
      Run.linkParent r.run (j.payload.fields.getD "parent_run_id").identifier?
      return Run.outcome r) w

theorem Job.Continues.handsOver {j : Job} {c : Context} (h : j.Continues c)
    (hread : ∀ a ∈ c.pending, a.IsRead) : j.HandsOver c c.pending where
  told := by
    rw [h.payload]
    exact storedActions_encodeActions hread
  resumes w record halts hrecord hhalts := by
    rw [h.payload] at hrecord hhalts ⊢
    exact Workflow.resumeDelayed_eq hread hrecord hhalts

namespace Run
variable {levels : Nat} {actions left : List Action} {results : List ActionResult} {halts : Bool}
variable {f g : Frame} {r : RunResult}

/-- The job that a run names hands over what the run has left. -/
theorem Enters.handsOver {id : Uuid} {status : RunStatus} {delayed : Option Uuid}
    (h : Enters halts actions id results left status delayed g) (hread : ∀ a ∈ actions, a.IsRead)
    (hqueued : g.world.Queued) {j : Job} (hj : j ∈ g.world.tables.jobs) (hid : delayed = some j.id) :
    j.HandsOver g.context left := by
  obtain ⟨-, hcovered, hended⟩ := h
  obtain ⟨-, k, hk, hkid, hcontinues, rfl⟩ := hended.job j.id hid
  obtain rfl : j = k := hqueued.numbered.eq_of_id hj hk hkid.symm
  obtain ⟨done, hsplit, -⟩ := hcovered.split
  refine hcontinues.handsOver fun a ha => hread a ?_
  rw [hsplit]
  exact List.mem_append_right done ha

/-- The results of a run with these actions, followed by those of the runs that go on with it, each
with the actions that its job tells. -/
inductive Resumed : List Action → List ActionResult → Prop
  | last {levels : Nat} {actions : List Action} {halts : Bool} {f g : Frame} {r : RunResult}
      (ran : runActions (Workflow.reaction levels) actions halts f = .ok r g) :
      Resumed actions r.executed
  | more {levels : Nat} {actions next : List Action} {halts : Bool} {f g : Frame} {r : RunResult}
      {j : Job} {results : List ActionResult} (queued : f.world.Queued)
      (ran : runActions (Workflow.reaction levels) actions halts f = .ok r g)
      (stored : j ∈ g.world.tables.jobs) (delayed : r.delayedJob = some j.id)
      (told : storedActions (j.payload.fields.getD "actions") = .valid next)
      (later : Resumed next results) : Resumed actions (r.executed ++ results)

/-- Jobs have identifiers of their own after a run as before it. -/
theorem queued_after (hqueued : f.world.Queued)
    (hran : runActions (Workflow.reaction levels) actions halts f = .ok r g) : g.world.Queued :=
  ((upholdsIn_runActions (R := JobsRest) (Workflow.upholdsReaction_reaction levels) actions halts).ok
    hran hqueued).queued

/-- However often a run is resumed, there is a result for each of its first actions, in their order. -/
theorem Resumed.done (h : Resumed actions results) (hread : ∀ a ∈ actions, a.IsRead) :
    ∃ done left, actions = done ++ left ∧ List.Forall₂ ActionResult.IsOf results done := by
  induction h with
  | last ran =>
    obtain ⟨_, left, -, -, hcovered, -⟩ := (runActions_enters _ _ _ _).ok_of ran
    obtain ⟨done, hsplit, hdone⟩ := hcovered.split
    exact ⟨done, left, hsplit, hdone⟩
  | more queued ran stored delayed told later ih =>
    obtain ⟨_, left, -, henters⟩ := (runActions_enters _ _ _ _).ok_of ran
    have hands := henters.handsOver hread (queued_after queued ran) stored delayed
    obtain ⟨done, rfl, hdone⟩ := henters.2.1.split
    cases told.symm.trans hands.told
    obtain ⟨more, left, rfl, hmore⟩ := ih fun a ha => hread a (List.mem_append_right done ha)
    exact ⟨done ++ more, left, (List.append_assoc ..).symm, List.rel_append hdone hmore⟩

end Run
end RecordFlow
