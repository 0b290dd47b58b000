import RecordFlow.Proofs.Approval.Concluding
import RecordFlow.Proofs.Approval.Trail
import RecordFlow.Proofs.Session.Timekeeping

/-! # Approvals in step with their entries

Whatever is asked for, the version of an approval tells how many entries there are on it, and its
status and step only go on as an action lets them. An approval that is decided, cancelled or expired
stays so, and what is answered as invalid changes nothing that is stored.
-/
namespace RecordFlow
open RecordFlow.Flow Calendar

def ApprovalStatus.isFinal : ApprovalStatus → Bool
  | .approved | .rejected | .cancelled | .expired => true
  | .pending | .changesRequested | .other _ => false

namespace Approval

theorem Shifts.step_le {s t : ApprovalStatus × Int} (h : Shifts s t) : s.2 ≤ t.2 := by
  cases h with
  | next n => exact Int.le_add_one (Int.le_refl n)
  | _ => exact Int.le_refl _

theorem Shifts.undecided {s t : ApprovalStatus × Int} (h : Shifts s t) : s.1.isFinal = false := by
  cases h <;> rfl

structure Later (a b : Approval) : Prop where
  id : b.id = a.id
  shifts : Relation.ReflTransGen Shifts (a.status, a.step) (b.status, b.step)

namespace Later
variable {a b c : Approval}

theorem refl (a : Approval) : a.Later a := ⟨rfl, .refl⟩

theorem trans (h : a.Later b) (h' : b.Later c) : a.Later c :=
  ⟨h'.id.trans h.id, h.shifts.trans h'.shifts⟩

theorem step_le (h : a.Later b) : a.step ≤ b.step := by
  have monotone (s t : ApprovalStatus × Int) (hst : Relation.ReflTransGen Shifts s t) : s.2 ≤ t.2 := by
    induction hst with
    | refl => exact Int.le_refl _
    | tail _ hshift ih => exact Int.le_trans ih hshift.step_le
  exact monotone _ _ h.shifts

theorem final (h : a.Later b) (hfinal : a.status.isFinal = true) :
    b.status = a.status ∧ b.step = a.step := by
  rcases Relation.ReflTransGen.cases_head h.shifts with hsame | ⟨_, hshift, -⟩
  · exact ⟨(congrArg Prod.fst hsame).symm, (congrArg Prod.snd hsame).symm⟩
  · have hundecided : a.status.isFinal = false := hshift.undecided
    rw [hfinal] at hundecided
    cases hundecided

end Later

end Approval

namespace Docket

/-- Versions tell how many entries there are, and every approval stands where actions led it from its
submission. -/
structure InStep (D : Docket) : Prop where
  distinct : (D.approvals.map Approval.id).Nodup
  known : ∀ e ∈ D.entries, ∃ a ∈ D.approvals, a.id = e.approval
  counted : ∀ a ∈ D.approvals, a.version = (D.entriesOf a.id).length
  reached : ∀ a ∈ D.approvals,
    Relation.ReflTransGen Approval.Shifts (.pending, 0) (a.status, a.step)

variable {D E : Docket}

theorem length_entriesOf_enter (D : Docket) (e : ApprovalEntry) (id : Uuid) :
    ((D.enter e).entriesOf id).length
      = (D.entriesOf id).length + if e.approval = id then 1 else 0 := by
  unfold entriesOf enter
  rw [List.filter_append, List.length_append]
  by_cases h : e.approval = id <;> simp [h]

namespace InStep
variable (h : D.InStep)
include h

theorem entriesOf_new {id : Uuid} (hnew : ∀ a ∈ D.approvals, a.id ≠ id) : D.entriesOf id = [] := by
  refine List.filter_eq_nil_iff.mpr fun e he htest => ?_
  obtain ⟨a, ha, hid⟩ := h.known e he
  exact hnew a ha (hid.trans (of_decide_eq_true htest))

theorem submit {a : Approval} {e : ApprovalEntry} (hnew : ∀ b ∈ D.approvals, b.id ≠ a.id)
    (hsubmitted : a.Submitted e) :
    InStep { D with approvals := D.approvals ++ [a], entries := D.entries ++ [e] } := by
  have counted (id : Uuid) := length_entriesOf_enter D e id
  refine ⟨nodup_append_new h.distinct hnew, fun d hd => ?_, fun b hb => ?_, fun b hb => ?_⟩
  · rcases List.mem_append.mp hd with hd | hd
    · obtain ⟨b, hb, hid⟩ := h.known d hd
      exact ⟨b, List.mem_append_left _ hb, hid⟩
    · rw [List.mem_singleton.mp hd]
      exact ⟨a, List.mem_append_right _ (List.mem_singleton_self a), hsubmitted.entered.symm⟩
  · refine Eq.trans ?_ (congrArg Nat.cast (counted b.id)).symm
    rcases List.mem_append.mp hb with hb | hb
    · rw [if_neg (hsubmitted.entered ▸ (hnew b hb).symm)]
      exact h.counted b hb
    · rw [List.mem_singleton.mp hb, if_pos hsubmitted.entered, h.entriesOf_new hnew]
      exact hsubmitted.version
  · rcases List.mem_append.mp hb with hb | hb
    · exact h.reached b hb
    · rw [List.mem_singleton.mp hb, hsubmitted.pending, hsubmitted.first]

theorem act {d : Proceeding} (hadmits : D.Admits d) : (D.act d).InStep := by
  have hproceeds := hadmits.proceeds
  have hentered : d.entry.approval = d.left.id := hproceeds.entered.1.trans hproceeds.id.symm
  have counted (id : Uuid) := length_entriesOf_enter D d.entry id
  refine ⟨(put_ids D d.left).symm ▸ h.distinct, fun e he => ?_, fun b hb => ?_, fun b hb => ?_⟩
  · have there (a : Approval) (ha : a ∈ D.approvals) : ∃ b ∈ (D.put d.left).approvals, b.id = a.id :=
      ⟨overwrite d.left a, List.mem_map_of_mem ha, id_overwrite d.left a⟩
    rcases List.mem_append.mp he with he | he
    · obtain ⟨a, ha, hid⟩ := h.known e he
      exact hid ▸ there a ha
    · rw [List.mem_singleton.mp he, hproceeds.entered.1]
      exact there d.seen hadmits.there
  · refine Eq.trans ?_ (congrArg Nat.cast (counted b.id)).symm
    rcases mem_put hb with rfl | ⟨hb, hother⟩
    · rw [if_pos hentered, hproceeds.version, h.counted d.seen hadmits.there, hproceeds.id]
      rfl
    · rw [if_neg fun hid => hother (hid.symm.trans hentered)]
      exact h.counted b hb
  · rcases mem_put hb with rfl | ⟨hb, -⟩
    · exact (h.reached d.seen hadmits.there).tail hproceeds.shifts
    · exact h.reached b hb

theorem mark (id : Uuid) (test : Approval → Bool) (executed : Bool) :
    (D.mark id test executed).InStep := by
  refine ⟨(mark_ids D id test executed).symm ▸ h.distinct, fun e he => ?_, fun b hb => ?_,
    fun b hb => ?_⟩
  · obtain ⟨a, ha, hid⟩ := h.known e he
    have hmem : a.id ∈ (D.mark id test executed).approvals.map Approval.id :=
      mark_ids D id test executed ▸ List.mem_map_of_mem ha
    obtain ⟨b, hb, hsame⟩ := List.mem_map.mp hmem
    exact ⟨b, hb, hsame.trans hid⟩
  · obtain ⟨a, ha, rfl⟩ := List.mem_map.mp hb
    split
    · exact h.counted a ha
    · exact h.counted a ha
  · obtain ⟨a, ha, rfl⟩ := List.mem_map.mp hb
    split
    · exact h.reached a ha
    · exact h.reached a ha

theorem turn (hturn : D.Turn E) : E.InStep := by
  cases hturn with
  | aside haside =>
    cases haside with
    | create p => exact ⟨h.distinct, h.known, h.counted, h.reached⟩
    | submit hnew hsubmitted => exact h.submit hnew hsubmitted
    | mark hmarks =>
      cases hmarks with
      | mark _ test executed => exact h.mark _ test executed
  | act hadmits => exact h.act hadmits

theorem turns (hturns : Relation.ReflTransGen Turn D E) : E.InStep := by
  induction hturns with
  | refl => exact h
  | tail _ hturn ih => exact ih.turn hturn

/-- An approval stays, and goes on by the action that is done to it. -/
theorem turn_later (hturn : D.Turn E) {a : Approval} (ha : a ∈ D.approvals) :
    ∃ b ∈ E.approvals, a.Later b := by
  cases hturn with
  | aside haside =>
    cases haside with
    | create p => exact ⟨a, ha, .refl a⟩
    | submit => exact ⟨a, List.mem_append_left _ ha, .refl a⟩
    | mark hmarks =>
      cases hmarks with
      | mark _ test executed =>
        refine ⟨_, List.mem_map_of_mem ha, ?_⟩
        split
        · exact ⟨rfl, .refl⟩
        · exact .refl a
  | @act d hadmits =>
    have hid := hadmits.proceeds.id
    by_cases hsame : a.id = d.left.id
    · obtain rfl : a = d.seen :=
        List.inj_on_of_nodup_map h.distinct ha hadmits.there (hsame.trans hid)
      exact ⟨d.left, mem_overwrite ha hsame, hid, .single hadmits.proceeds.shifts⟩
    · exact ⟨a, mem_put_of_ne ha hsame, .refl a⟩

theorem turns_later (hturns : Relation.ReflTransGen Turn D E) {a : Approval}
    (ha : a ∈ D.approvals) : ∃ b ∈ E.approvals, a.Later b := by
  induction hturns with
  | refl => exact ⟨a, ha, .refl a⟩
  | tail hbefore hturn ih =>
    obtain ⟨b, hb, hlater⟩ := ih
    obtain ⟨c, hc, hlater'⟩ := (h.turns hbefore).turn_later hturn hb
    exact ⟨c, hc, hlater.trans hlater'⟩

end InStep

end Docket

/-! ## Commands -/

def World.expirable (w : World) : List Approval :=
  w.tables.approvals.filter fun a => a.status = .pending && a.expiresAt.isSome

theorem World.seen_expirable (w : World) :
    ∀ a ∈ w.expirable, a.SeenIn w.tables.docket ∧ a.status = .pending := by
  intro a ha
  obtain ⟨hthere, htest⟩ := List.mem_filter.mp ha
  simp only [Bool.and_eq_true, decide_eq_true_eq] at htest
  exact ⟨.of_mem hthere, htest.1⟩

namespace Command

def isOvertaken : Command → Bool
  | act _ _ overtaken => overtaken
  | resubmit _ _ _ overtaken => overtaken
  | expire _ overtaken => overtaken.isSome
  | _ => false

def acts : Command → Bool
  | act .. | resubmit .. | expire .. | tick _ => true
  | _ => false

variable {w : World} (hw : w.Orderly)
include hw

theorem handles_createProcess (d : ProcessDraft) (actor : String) :
    Handles Docket.Aside (d.create actor) w := by
  have numbered : w.nextNumber .approval ≤ (w.useNumber .process).nextNumber .approval :=
    w.nextNumber_le_useNumber .process .approval
  unfold ProcessDraft.create
  refine (insert_ends _ w).bind (fun _ v h => ?_) fun p v _ h => ?_
  · rw [h]
    exact hw.kept_of_docket rfl hw.saved numbered (Nat.le_refl _)
  · obtain ⟨-, rfl⟩ := h
    exact Ends.step (a := ()) rfl (.pure
      ⟨⟨rfl, hw.given.mono numbered⟩, Nat.le_refl _, .single (.create p)⟩)

/-- What is no action on an approval happens beside the actions. -/
theorem run_aside (c : Command) (hacts : c.acts = false) : Closes Docket.Aside c.run w := by
  have handled {α : Type} {part : Flow α} (h : Handles Docket.Aside part w) :
      Closes Docket.Aside (discard part : Flow Unit) w := (Closes.of_handles h).discard
  have upheld {α : Type} {part : Flow α} (h : Upholds (Keeping Docket.Aside) part) :
      Closes Docket.Aside (discard part : Flow Unit) w := handled (.of_upholds hw h)
  cases c with
  | createBlueprint d actor => exact upheld (d.upholds_create actor)
  | createProcess d actor => exact handled (handles_createProcess hw d actor)
  | move blueprint record toStage updates actor =>
    exact upheld (Blueprint.upholds_move Approval.keeping_submitted _ record toStage updates actor)
  | executeMove approval actor =>
    exact handled ((Approval.handles_executeMove hw approval actor).mono fun _ _ => .mark)
  | submit process record requestedBy about =>
    exact (Approval.closes_submit process record requestedBy about hw).discard
  | errand x => exact .of_handles (.of_upholds hw x.upholds_any)
  | act | resubmit | expire | tick => cases hacts

variable (hcalm : w.rivalWrites = 0)
include hcalm

theorem handles_tick (m : Moment) : Handles Docket.Turn (Tick.run m) w := by
  unfold Tick.run
  refine .bind (.of_upholds hw (Workflow.upholds_scheduleDue m)) fun scheduled v hv => ?_
  refine .step (a := v.expirable) rfl ?_
  refine .bind (Approval.handles_expire hv.orderly (hv.calm hcalm) m v.seen_expirable)
    fun expired u hu => ?_
  exact .of_upholds hu.orderly (.bind (Job.upholds_process _ _ _) fun _ => .pure _)

/-- Whatever is asked for, if nobody else gets in, the docket goes on by its turns. -/
theorem run_closes (c : Command) (halone : c.isOvertaken = false) :
    Closes Docket.Turn c.run w := by
  have handled {α : Type} {part : Flow α} (h : Handles Docket.Turn part w) :
      Closes Docket.Turn (discard part : Flow Unit) w := (Closes.of_handles h).discard
  have fetched {rest : Approval → Flow Unit} (id : Uuid)
      (hrest : ∀ a ∈ w.tables.docket.approvals, Closes Docket.Turn (rest a) w) :
      Closes Docket.Turn (fetch Approval id >>= rest) w :=
    .fetched (fun _ => hw.rolledBack) fun a ha _ => hrest a ha
  cases c with
  | act approval r overtaken =>
    obtain rfl : overtaken = false := halone
    refine fetched approval fun a ha => handled ?_
    exact Approval.handles_act hw hcalm (.of_mem ha) r
  | resubmit approval actor comment overtaken =>
    obtain rfl : overtaken = false := halone
    refine fetched approval fun a ha => handled ?_
    exact Approval.handles_resubmit hw hcalm (.of_mem ha) actor comment
  | expire m overtaken =>
    cases overtaken with
    | some id => cases halone
    | none =>
      have expired := handled (Approval.handles_expire hw hcalm m w.seen_expirable)
      exact Ends.step (a := w.expirable) rfl expired
  | tick m => exact handled (handles_tick hw hcalm m)
  | createBlueprint | createProcess | move | executeMove | submit | errand =>
    exact (run_aside hw _ rfl).mono fun _ _ => .aside

/-- After a command the docket went on by its turns, and all of it is saved. -/
theorem after_kept (c : Command) (halone : c.isOvertaken = false) :
    w.Kept Docket.Turn (c.after w) := by
  have kept := c.run_closes hw hcalm halone
  unfold after
  cases h : c.run w with
  | ok _ v => exact kept.ok_of h
  | error e v => exact kept.bad_of h

end Command

/-! ## Sessions -/

namespace World
variable {w : World}

theorem IsNew.orderly (hw : w.IsNew) : w.Orderly where
  saved := by rw [hw.1, hw.2]
  given := by
    rw [hw.1]
    exact .nil

theorem IsNew.inStep (hw : w.IsNew) : w.tables.docket.InStep := by
  have none {a : Approval} (ha : a ∈ Tables.empty.docket.approvals) : False := List.not_mem_nil ha
  rw [hw.1]
  exact ⟨List.nodup_nil, fun e he => absurd he List.not_mem_nil, fun a ha => (none ha).elim,
    fun a ha => (none ha).elim⟩

theorem Orderly.afterAll_kept (hw : w.Orderly) (hcalm : w.rivalWrites = 0) (session : List Command)
    (halone : ∀ c ∈ session, c.isOvertaken = false) : w.Kept Docket.Turn (w.afterAll session) := by
  induction session generalizing w with
  | nil => exact hw.kept
  | cons c rest ih =>
    have kept := c.after_kept hw hcalm (halone c List.mem_cons_self)
    exact kept.trans (ih kept.orderly (kept.calm hcalm) fun d hd =>
      halone d (List.mem_cons_of_mem c hd))

theorem afterAll_resume (w : World) (before later : List Command) :
    w.afterAll (before ++ later) = (w.afterAll before).afterAll later :=
  List.foldl_append

end World

structure World.InStepAfter (w : World) (session : List Command) : Prop where
  counted : ∀ a ∈ (w.afterAll session).tables.approvals, a.version
    = ((w.afterAll session).tables.approvalEntries.filter fun e => e.approval = a.id).length
  reached : ∀ a ∈ (w.afterAll session).tables.approvals,
    Relation.ReflTransGen Approval.Shifts (.pending, 0) (a.status, a.step)
  goesOn : ∀ before later, session = before ++ later →
    ∀ a ∈ (w.afterAll before).tables.approvals, ∃ b ∈ (w.afterAll session).tables.approvals,
      b.id = a.id ∧ Relation.ReflTransGen Approval.Shifts (a.status, a.step) (b.status, b.step)
      ∧ a.step ≤ b.step ∧ (a.status.isFinal = true → b.status = a.status ∧ b.step = a.step)
  refused : ∀ (a : Approval) (r : ApprovalRequest) (result : ApprovalResult) (v : World),
    a.act r (w.afterAll session) = .ok result v → result.isInvalid = true →
    v.tables = (w.afterAll session).tables
  refusedAgain : ∀ (a : Approval) (actor : String) (comment : Option String)
    (result : ApprovalResult) (v : World),
    a.resubmit actor comment (w.afterAll session) = .ok result v → result.isInvalid = true →
    v.tables = (w.afterAll session).tables

/-- Whatever is asked for in a session, approvals are in step with their entries, go on only as
actions let them, and are not changed by what is refused. -/
theorem World.afterAll_inStep {w : World} (hw : w.IsNew) (hcalm : w.rivalWrites = 0)
    (session : List Command) (halone : ∀ c ∈ session, c.isOvertaken = false) :
    w.InStepAfter session := by
  have kept := hw.orderly.afterAll_kept hcalm session halone
  have inStep := hw.inStep.turns kept.steps
  refine ⟨inStep.counted, inStep.reached, ?_, ?_, ?_⟩
  · rintro before later rfl a ha
    have kept₁ := hw.orderly.afterAll_kept hcalm before fun c hc =>
      halone c (List.mem_append_left _ hc)
    have kept₂ := kept₁.orderly.afterAll_kept (kept₁.calm hcalm) later fun c hc =>
      halone c (List.mem_append_right _ hc)
    obtain ⟨b, hb, hlater⟩ := (hw.inStep.turns kept₁.steps).turns_later kept₂.steps ha
    rw [World.afterAll_resume]
    exact ⟨b, hb, hlater.id, hlater.shifts, hlater.step_le, hlater.final⟩
  · intro a r result v h
    exact (Approval.unwritten_act (kept.calm hcalm) inStep.distinct a r).ok_of h
  · intro a actor comment result v h
    exact (Approval.unwritten_resubmit (kept.calm hcalm) inStep.distinct a actor comment).ok_of h

def askedForChanges : List Command :=
  let first := TableName.approval.rowId 1
  let second := TableName.approval.rowId 2
  [.createProcess twoDesks "admin",
   .errand (.create ⟨.str "deals", .null, .null, .null, .obj [], .null⟩),
   .submit (TableName.process.rowId 1) (TableName.record.rowId 1) (some "eve") [],
   .submit (TableName.process.rowId 1) (TableName.record.rowId 1) (some "eve") [],
   .act first ⟨.approve, "ann", none, none⟩ false,
   .act first ⟨.requestChanges, "bob", none, none⟩ false,
   .act second ⟨.requestChanges, "ann", none, some "more"⟩ false]

/-- The first approval is put back, rejected, and approved in vain; the second one is cancelled. -/
def settledBoth : List Command :=
  let first := TableName.approval.rowId 1
  [.resubmit first "eve" none false,
   .act first ⟨.reject, "bob", none, some "no"⟩ false,
   .act first ⟨.approve, "bob", none, some "yes"⟩ false,
   .act (TableName.approval.rowId 2) ⟨.cancel, "eve", none, none⟩ false]

set_option maxRecDepth 10000 in
theorem settledBoth_course :
    (World.fresh.afterAll askedForChanges).tables.approvals.map (fun a => (a.status, a.step))
      = [(.changesRequested, 1), (.changesRequested, 0)]
    ∧ (World.fresh.afterAll (askedForChanges ++ settledBoth)).tables.approvals.map
      (fun a => (a.status, a.step, a.version)) = [(.rejected, 1, 5), (.cancelled, 0, 3)] := by
  decide +kernel

/-- The first approval was led to its rejection by five actions, which are all entered. -/
theorem World.afterAll_inStep_settled : World.fresh.IsNew ∧ World.fresh.rivalWrites = 0
    ∧ (∀ c ∈ askedForChanges ++ settledBoth, c.isOvertaken = false)
    ∧ World.fresh.InStepAfter (askedForChanges ++ settledBoth)
    ∧ ∃ a ∈ (World.fresh.afterAll (askedForChanges ++ settledBoth)).tables.approvals,
      a.status = .rejected ∧ a.step = 1
        ∧ ((World.fresh.afterAll (askedForChanges ++ settledBoth)).tables.approvalEntries.filter
          fun e => e.approval = a.id).length = 5 := by
  have halone : ∀ c ∈ askedForChanges ++ settledBoth, c.isOvertaken = false := by decide
  have inStep := World.afterAll_inStep World.fresh_isNew rfl (askedForChanges ++ settledBoth) halone
  obtain ⟨a, ha, hstands⟩ := List.mem_map.mp (settledBoth_course.2 ▸ List.mem_cons_self)
  have hversion : a.version = 5 := congrArg (·.2.2) hstands
  refine ⟨World.fresh_isNew, rfl, halone, inStep, a, ha, congrArg (·.1) hstands,
    congrArg (·.2.1) hstands, ?_⟩
  exact_mod_cast (inStep.counted a ha).symm.trans hversion

end RecordFlow
