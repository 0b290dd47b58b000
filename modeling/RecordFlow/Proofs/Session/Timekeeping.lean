import RecordFlow.Proofs.Cadence.Serving
import RecordFlow.Proofs.Session.Command

/-! # The timetable of a session

Every command keeps the pace of the timetable. So in whatever state a session ends, a record is
enrolled in a cadence once at a time, what is ended stays as it is, and every active enrollment has
a job that carries out its next step unless its attempts are used up.
-/
namespace RecordFlow
open RecordFlow.Flow

/-! ## What commands uphold -/

section Aloof
variable {R : World → World → Prop}

theorem BlueprintDraft.upholds_create [Mild R] [Indifferent R StoredBlueprint]
    (d : BlueprintDraft) (actor : String) : Upholds R (d.create actor) :=
  .bind (.looks .now) fun _ => .bind (Incidental.upholds (incidental_insert _)) fun _ =>
    .bind (upholds_catalogued (by decide)) fun _ => .pure _

variable [Aloof R]

theorem ProcessDraft.upholds_create (d : ProcessDraft) (actor : String) :
    Upholds R (d.create actor) :=
  .bind (Incidental.upholds (incidental_insert _)) fun _ =>
    .bind (upholds_catalogued (by decide)) fun _ => .pure _

theorem Approval.upholds_overtake (id : Uuid) : Upholds R (Approval.overtake id) :=
  .bind (Incidental.upholds (incidental_update _ _)) fun _ => upholds_commit

/-- What decisions abide by is upheld by every command, if it is upheld by errands and sweeps. -/
theorem Command.upholds_of_errands (c : Command)
    (herrand : ∀ x, c = .errand x → Upholds R x.run)
    (hprocess : c.sweeps = true → ∀ cutoff limit worker,
      Upholds R (Job.process cutoff limit worker)) :
    Upholds R c.run := by
  have overtaken (id : Uuid) (yes : Bool) {rest : Flow Unit} (hrest : Upholds R rest) : Upholds R (do
      if yes then Approval.overtake id
      rest) :=
    .ite (.bind (Approval.upholds_overtake id) fun _ => hrest) hrest
  cases c with
  | createBlueprint d actor => exact (d.upholds_create actor).discard
  | createProcess d actor => exact (d.upholds_create actor).discard
  | move blueprint record toStage updates actor =>
    have submits (process record : Uuid) (by_ : Option String) (about : Fields) :
        Upholds R (do
          let a ← Approval.submit process record by_ about
          commit
          return a) :=
      .bind (Incidental.upholds (incidental_submit process record by_ about)) fun _ =>
        .bind upholds_commit fun _ => .pure _
    exact (Blueprint.upholds_move submits _ record toStage updates actor).discard
  | executeMove approval actor => exact (Approval.upholds_executeMove approval actor).discard
  | submit process record requestedBy about =>
    exact (Incidental.upholds (incidental_submit process record requestedBy about)).discard
  | act approval r yes =>
    refine .bind (.looks (.fetch anyCause Approval approval)) fun a => ?_
    exact overtaken approval yes (Approval.upholds_act a r).discard
  | resubmit approval actor comment yes =>
    refine .bind (.looks (.fetch anyCause Approval approval)) fun a => ?_
    exact overtaken approval yes (Approval.upholds_resubmit a actor comment).discard
  | expire m rival =>
    refine .bind (.looks (.bind (.all Approval) fun _ => .pure _)) fun loaded => ?_
    cases rival with
    | none => exact (Approval.upholds_expire m loaded).discard
    | some id =>
      exact .bind (Approval.upholds_overtake id) fun _ => (Approval.upholds_expire m loaded).discard
  | tick m =>
    have ticks : Upholds R (Tick.run m) := by
      refine .bind (Workflow.upholds_scheduleDue m) fun _ => ?_
      refine .bind (.looks (.bind (.all Approval) fun _ => .pure _)) fun loaded => ?_
      refine .bind (Approval.upholds_expire m loaded) fun _ => ?_
      exact .bind (hprocess rfl _ _ _) fun _ => .pure _
    exact ticks.discard
  | errand x => exact herrand x rfl

/-- What runs and decisions uphold is upheld by every command, if it is upheld by the errands that
are about single enrollments and jobs. -/
theorem Command.upholds_run [Bearing R] [Timeless R] (c : Command)
    (hpause : ∀ id actor, Upholds R (Enrollment.pause id actor))
    (hresume : ∀ id actor, Upholds R (Enrollment.resume id actor))
    (hclaim : c.sweeps = true → ∀ id worker, Upholds R (Job.claimPending id worker))
    (hcancel : ∀ id, c = .errand (.cancel id) → Upholds R (Job.cancelPending id))
    (hprocess : c.sweeps = true → ∀ cutoff limit worker,
      Upholds R (Job.process cutoff limit worker)) :
    Upholds R c.run := by
  refine c.upholds_of_errands (fun x hx => ?_) hprocess
  subst hx
  exact x.upholds_run hpause hresume hclaim (fun id hx => hcancel id (hx ▸ rfl)) hprocess

omit [Aloof R] in
/-- Once a command is saved or undone, what it upholds holds. -/
theorem Command.after_upheld [Mild R] {c : Command} (h : Upholds R c.run) (w : World) :
    R w (c.after w) := by
  unfold after
  cases hc : c.run w with
  | ok _ v => exact trans_of R (h.ok hc) (Mild.commits v)
  | error e v => exact h.error hc

end Aloof

/-! ## Sessions -/

section Sessions
variable {cancels : Uuid → Prop} {w : World}

theorem Command.paced_after (c : Command) (hw : w.Timely cancels)
    (hcancels : ∀ id, c = .errand (.cancel id) → cancels id) : World.Paced cancels w (c.after w) := by
  have upholds : Upholds (Paces cancels) c.run :=
    c.upholds_run Enrollment.pacing_pause Enrollment.pacing_resume
      (fun _ => Job.pacing_claimPending) (fun id hc => Job.pacing_cancelPending (hcancels id hc))
      fun _ => Job.pacing_process
  exact Command.after_upheld upholds w hw

theorem Command.after_even (c : Command) (w : World) : (c.after w).saved = (c.after w).tables := by
  unfold after
  cases c.run w with
  | ok _ _ => rfl
  | error _ _ => rfl

theorem World.afterAll_even (hw : w.saved = w.tables) (session : List Command) :
    (w.afterAll session).saved = (w.afterAll session).tables := by
  induction session generalizing w with
  | nil => exact hw
  | cons c rest ih => exact ih (c.after_even w)

theorem World.Timely.afterAll (hw : w.Timely cancels) (session : List Command)
    (hcancels : ∀ id, .errand (.cancel id) ∈ session → cancels id) :
    World.Paced cancels w (w.afterAll session) := by
  induction session generalizing w with
  | nil => exact hw.refl
  | cons c rest ih =>
    have head : World.Paced cancels w (c.after w) :=
      c.paced_after hw fun id hc => hcancels id (hc ▸ List.mem_cons_self)
    have tail := ih head.timely fun id hid => hcancels id (List.mem_cons_of_mem c hid)
    exact head.trans tail

theorem World.IsNew.timely (hw : w.IsNew) : w.Timely cancels := by
  obtain ⟨htables, hsaved⟩ := hw
  have nobody {P : Enrollment → Prop} (e : Enrollment) (he : e ∈ Tables.empty.enrollments) : P e :=
    absurd he List.not_mem_nil
  constructor
  · rw [hsaved]
    exact ⟨List.nodup_nil, List.nodup_nil, nobody, nobody, nobody⟩
  · rw [hsaved, htables]
  · rw [htables]
    exact ⟨.nil, .nil⟩

/-- What is stored after a part of a session goes on by turns to what is stored after all of it. -/
theorem World.IsNew.turns (hw : w.IsNew) {before later session : List Command}
    (hsession : session = before ++ later) : Timetable.Turns (fun _ => True)
      (w.afterAll before).tables.timetable (w.afterAll session).tables.timetable := by
  have timely : World.Timely (fun _ => True) (w.afterAll before) :=
    (hw.timely.afterAll before fun _ _ => trivial).timely
  have even : (w.afterAll before).saved = (w.afterAll before).tables :=
    World.afterAll_even (hw.2.trans hw.1.symm) before
  have paced := timely.afterAll later fun _ _ => trivial
  have joined : w.afterAll session = (w.afterAll before).afterAll later := by
    rw [hsession]
    exact List.foldl_append
  rw [joined]
  exact paced.stored (congrArg Tables.timetable even)

end Sessions

/-- Whatever is asked for, a record is enrolled in a cadence once at a time, what is ended waits for
nothing, and every enrollment goes its course. -/
theorem World.afterAll_enrollments {w : World} (hw : w.IsNew) (session : List Command) :
    (∀ e ∈ (w.afterAll session).tables.enrollments, ∀ e' ∈ (w.afterAll session).tables.enrollments,
      e.status.isLive = true → e'.status.isLive = true → e.cadence = e'.cadence →
      e.record = e'.record → e = e')
    ∧ (∀ e ∈ (w.afterAll session).tables.enrollments, e.status.isLive = false →
      e.pendingJob = none ∧ e.nextStepDueAt = none)
    ∧ ∀ before later, session = before ++ later →
      ∀ e ∈ (w.afterAll before).tables.enrollments,
        ∃ e' ∈ (w.afterAll session).tables.enrollments, e.Later e' := by
  have sound : ((w.afterAll session).tables.timetable).Sound fun _ => True :=
    (hw.timely.afterAll session fun _ _ => trivial).timely.current
  refine ⟨fun e he e' he' hlive hlive' hcadence hrecord => ?_, sound.ended, ?_⟩
  · have hid := sound.single e he e' he' hlive hlive' hcadence hrecord
    exact sound.eq_of_enrollment he he' hid
  · intro before later hsession e he
    obtain ⟨e', he', hcourse⟩ := (hw.turns hsession).course he
    exact ⟨e', he', hcourse.later⟩

def CadenceStep.atOnce (kind : StepKind) (title subject : Option String) : CadenceStep :=
  ⟨"auto", kind, 0, 0, title, none, .normal, "owner", none, subject, none, none⟩

def enrolledIn (steps : List CadenceStep) : List Command := [
  .errand (.createCadence ⟨"Outreach", none, none, true, steps, none⟩ "admin"),
  .errand (.create ⟨.str "deals", .str "Deal", .null, .null, .obj [], .null⟩),
  .errand (.enroll (TableName.cadence.rowId 1) (TableName.record.rowId 1) .null)]

def enrolledForTasks : List Command :=
  enrolledIn [.atOnce .task (some "First") none, .atOnce .task (some "Second") none]

/-- Both tasks are set, with a pause in which a job comes to nothing. -/
def pausedBetween : List Command :=
  let sweep := Command.errand (.process ⟨0⟩ none none)
  let enrollment := TableName.enrollment.rowId 1
  [sweep, .errand (.pause enrollment none), sweep, .errand (.resume enrollment none), sweep]

set_option maxRecDepth 10000 in
theorem pausedBetween_course :
    (World.fresh.afterAll enrolledForTasks).tables.enrollments.map
      (fun e => (e.status, e.step)) = [(.active, 0)]
    ∧ (World.fresh.afterAll (enrolledForTasks ++ pausedBetween)).tables.enrollments.map
      (fun e => (e.status, e.step)) = [(.completed, 2)] := by
  decide +kernel

/-- An enrollment that was active at its first step is completed later on. -/
theorem World.afterAll_enrollments_paused : World.fresh.IsNew
    ∧ ∃ e ∈ (World.fresh.afterAll enrolledForTasks).tables.enrollments, e.status = .active
      ∧ ∃ e' ∈ (World.fresh.afterAll (enrolledForTasks ++ pausedBetween)).tables.enrollments,
        e'.status = .completed ∧ e.Later e' ∧ e'.pendingJob = none ∧ e'.nextStepDueAt = none := by
  obtain ⟨hactive, hcompleted⟩ := pausedBetween_course
  obtain ⟨-, hended, hlater⟩ := World.afterAll_enrollments World.fresh_isNew
    (enrolledForTasks ++ pausedBetween)
  obtain ⟨e, he, hstatus⟩ := List.mem_map.mp (hactive ▸ List.mem_singleton_self _)
  obtain ⟨e', he', later⟩ := hlater enrolledForTasks pausedBetween rfl e he
  have hstatus' : (e'.status, e'.step) ∈ [(EnrollmentStatus.completed, (2 : Int))] :=
    hcompleted ▸ List.mem_map_of_mem he'
  have hdone : e'.status = .completed := congrArg Prod.fst (List.mem_singleton.mp hstatus')
  exact ⟨World.fresh_isNew, e, he, congrArg Prod.fst hstatus, e', he', hdone, later,
    hended e' he' (by rw [hdone]; rfl)⟩

/-- Whatever is asked for, an active enrollment has its job. Unless the job was cancelled by hand, it
waits or runs, or its attempts are used up. -/
theorem World.afterAll_attended {w : World} (hw : w.IsNew) (session : List Command) :
    ∀ e ∈ (w.afterAll session).tables.enrollments, e.status = .active →
      ∃ j ∈ (w.afterAll session).tables.jobs, e.pendingJob = some j.id ∧ j.kind = cadenceKind
        ∧ j.payload.fields.getD "enrollment_id" = .uuid e.id
        ∧ (.errand (.cancel j.id) ∉ session → j.status = .pending ∨ j.status = .running
          ∨ j.status = .failed ∧ j.maxAttempts ≤ j.attempt) := by
  intro e he hactive
  have sound : ((w.afterAll session).tables.timetable).Sound fun id =>
      .errand (.cancel id) ∈ session :=
    (hw.timely.afterAll session fun _ h => h).timely.current
  obtain ⟨j, hj, hpending, hfor, hserves⟩ := sound.attended e he (by rw [hactive]; rfl)
  refine ⟨j, hj, hpending, hfor.kind, by rw [hfor.payload]; rfl, fun hnot => ?_⟩
  cases hserves hactive with
  | pending h => exact .inl h
  | running h => exact .inr (.inl h)
  | exhausted h hattempts => exact .inr (.inr ⟨h, hattempts⟩)
  | cancelled _ hcancels => exact absurd hcancels hnot

def World.impatient : World :=
  .initial ⟨⟨0⟩, 0⟩ { Settings.standard with maxAttempts := 1 } .complete []

theorem World.impatient_isNew : World.impatient.IsNew := World.initial_isNew _ _ _ _

def enrolledForMessage : List Command := enrolledIn [.atOnce .email none (some "Hi")]

def messageFailed : List Command := enrolledForMessage ++ [.errand (.process ⟨0⟩ none none)]

set_option maxRecDepth 10000 in
theorem messageFailed_statuses :
    (World.impatient.afterAll messageFailed).tables.enrollments.map Enrollment.status = [.active]
    ∧ (World.impatient.afterAll messageFailed).tables.jobs.map Job.status = [.failed] := by
  decide +kernel

theorem messageFailed_jobs : ∀ j ∈ (World.impatient.afterAll messageFailed).tables.jobs,
    j.status = .failed ∧ .errand (.cancel j.id) ∉ messageFailed := by
  intro j hj
  have uncancelled : .errand (.cancel j.id) ∉ messageFailed := by
    simp [messageFailed, enrolledForMessage, enrolledIn]
  exact ⟨List.mem_singleton.mp (messageFailed_statuses.2 ▸ List.mem_map_of_mem hj), uncancelled⟩

/-- After the failure the enrollment is still active, and its job has used up its attempt. -/
theorem World.afterAll_attended_failed : World.impatient.IsNew
    ∧ ∃ e ∈ (World.impatient.afterAll messageFailed).tables.enrollments, e.status = .active
      ∧ ∃ j ∈ (World.impatient.afterAll messageFailed).tables.jobs, e.pendingJob = some j.id
        ∧ j.status = .failed ∧ j.maxAttempts ≤ j.attempt := by
  have hactive := messageFailed_statuses.1
  obtain ⟨e, he, hstatus⟩ := List.mem_map.mp (hactive ▸ List.mem_singleton_self _)
  obtain ⟨j, hj, hpending, -, -, hserves⟩ :=
    World.afterAll_attended World.impatient_isNew messageFailed e he hstatus
  obtain ⟨hfailed, uncancelled⟩ := messageFailed_jobs j hj
  rcases hserves uncancelled with h | h | ⟨-, hattempts⟩
  · rw [hfailed] at h
    cases h
  · rw [hfailed] at h
    cases h
  · exact ⟨World.impatient_isNew, e, he, hstatus, j, hj, hpending, hfailed, hattempts⟩

/-- The job of an active enrollment may have been given up, so that no sweep carries it out. -/
theorem World.afterAll_givenUp : ¬ ∀ w : World, w.IsNew → ∀ session : List Command,
    ∀ e ∈ (w.afterAll session).tables.enrollments, e.status = .active →
      ∃ j ∈ (w.afterAll session).tables.jobs, e.pendingJob = some j.id ∧ j.kind = cadenceKind
        ∧ j.payload.fields.getD "enrollment_id" = .uuid e.id
        ∧ (.errand (.cancel j.id) ∉ session → j.status = .pending ∨ j.status = .running) := by
  intro h
  have hactive := messageFailed_statuses.1
  obtain ⟨e, he, hstatus⟩ := List.mem_map.mp (hactive ▸ List.mem_singleton_self _)
  obtain ⟨j, hj, -, -, -, hserves⟩ :=
    h World.impatient World.impatient_isNew messageFailed e he hstatus
  obtain ⟨hfailed, uncancelled⟩ := messageFailed_jobs j hj
  rcases hserves uncancelled with h | h
  · rw [hfailed] at h
    cases h
  · rw [hfailed] at h
    cases h

end RecordFlow
