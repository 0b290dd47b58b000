import RecordFlow.Proofs.Cadence.Paced

/-! # How jobs serve the timetable

A job is claimed, and carries out the step of the enrollment that waits for it. It is completed only
when no active enrollment waits for it any more; if it fails, it waits for another attempt until its
attempts are used up.
-/
namespace RecordFlow
open RecordFlow.Flow Calendar
variable {cancels : Uuid → Prop} {w v u : World} {α β : Type}

abbrev Pacing (cancels : Uuid → Prop) (part : Flow α) (w : World) : Prop :=
  Ends part w (fun _ v => World.Paced cancels w v) fun _ v => World.Paced cancels w v.rolledBack

namespace World

theorem Paced.ends {part : Flow α} (h : Paced cancels w v) (hpart : Upholds (Paces cancels) part) :
    Ends part v (fun _ u => Paced cancels w u) fun _ u => Paced cancels w u.rolledBack :=
  (hpart v).mono (fun _ _ hu => h.trans (hu h.timely)) fun _ _ hu => h.trans (hu h.timely)

theorem Paced.stored (h : Paced cancels w v) (heven : w.saved.timetable = w.tables.timetable) :
    Timetable.Turns cancels w.tables.timetable v.tables.timetable :=
  heven ▸ h.turns.trans h.timely.turns

end World

/-! ## Jobs that are claimed, put off and given up -/

namespace Job
variable {j j' : Job}

theorem incidental_work {test : Job → Bool} {change : Job → Job}
    (hsame : ∀ j : Job, j.SameTask (change j))
    (hserves : ∀ j, test j = true → (change j).Serves cancels) :
    Incidental (Paces cancels) (updateWhere test change) := fun w => by
  refine .of_ok (updateWhere_eq test change w) fun hw => paced_work hw (fun j _ => ?_) fun j _ => ?_
  · split
    · exact hsame j
    · exact .refl j
  · split
    · next h => exact .inr (.inl (hserves j h))
    · exact .inl rfl

theorem pacing_claimPending (id : Uuid) (worker : Option String) :
    Upholds (Paces cancels) (claimPending id worker) := by
  have claims (worker : String) (t : Instant) : Incidental (Paces cancels)
      (updateWhere (fun j : Job => j.id = id && j.isPending) (claim worker t)) :=
    incidental_work (fun _ => ⟨rfl, rfl, rfl⟩) fun _ _ => .running rfl
  exact .bind (.looks .now) fun _ => .bind (.looks .settings) fun _ =>
    .bind (Incidental.upholds (claims _ _)) fun _ => .bind upholds_commit fun _ => .pure _

theorem pacing_cancelPending {id : Uuid} (hcancels : cancels id) :
    Upholds (Paces cancels) (cancelPending id) := by
  have changes (t : Instant) : Incidental (Paces cancels)
      (updateWhere (fun j : Job => j.id = id && j.isPending) (cancel t)) := by
    refine incidental_work (fun _ => ⟨rfl, rfl, rfl⟩) fun j h => .cancelled rfl ?_
    have hid : j.id = id := by simpa using (Bool.and_eq_true_iff.mp h).1
    exact hid ▸ hcancels
  exact .bind (.looks .now) fun _ => .bind (Incidental.upholds (changes _)) fun _ => .pure _

/-- A job that was worked on is saved, and something follows that keeps the pace. -/
theorem saved_ends (hw : w.Timely cancels) (hj : j ∈ w.tables.jobs) (hsame : j.SameTask j')
    (hserves : j'.Serves cancels ∨ w.tables.timetable.Idle j.id) {rest : Unit → Flow β}
    (hrest : Upholds (Paces cancels) (rest ())) :
    Pacing cancels (store j' >>= fun _ => commit >>= rest) w := by
  have written : World.Paced cancels w (w.setRows (w.tables.jobs.map (overwrite j'))) := by
    have there (k : Job) (hk : k ∈ w.tables.jobs) (hid : k.id = j'.id) : k = j :=
      hw.current.eq_of_job hk hj (hid.trans hsame.id)
    refine paced_work hw (fun k hk => ?_) fun k hk => ?_
    · by_cases hid : k.id = j'.id
      · rw [overwrite_of_eq hid, there k hk hid]
        exact hsame
      · rw [overwrite_of_ne hid]
        exact .refl k
    · by_cases hid : k.id = j'.id
      · rw [overwrite_of_eq hid, there k hk hid]
        exact .inr hserves
      · exact .inl (overwrite_of_ne hid)
  refine (store_ends j' w).bind (fun _ v h => h.1 ▸ hw.rolledBack) fun _ v _ hv => ?_
  refine .step (a := ()) (t := v.committed) rfl ?_
  rw [hv]
  exact (written.trans written.timely.committed).ends hrest

theorem pacing_recordFailure (id : Uuid) (cause : Failure) :
    Upholds (Paces cancels) (recordFailure id cause) := by
  refine upholds_of_timely fun w hw => .fetched (fun _ => hw.rolledBack) fun j hj _ => ?_
  refine .step (a := w.clock.wall) (t := w) rfl ?_
  split
  · refine .step (a := w.settings) (t := w) rfl ?_
    have waits : Looks (inTime (backoff w.settings.backoffSeconds j.attempt)) := .inTime anyCause _
    refine waits.followed (fun _ => hw.rolledBack) fun wait => ?_
    have due : Looks (inTime (w.clock.wall.add? wait)) := .inTime anyCause _
    refine due.followed (fun _ => hw.rolledBack) fun runAt => ?_
    refine saved_ends hw hj ?_ (.inl (.pending ?_)) (.pure _)
    · exact ⟨rfl, rfl, rfl⟩
    · rfl
  · next hretry =>
    have exhausted : j.maxAttempts ≤ j.attempt := by simpa [mayRetry] using hretry
    refine saved_ends hw hj ?_ (.inl (.exhausted ?_ ?_)) (.pure _)
    · exact ⟨rfl, rfl, rfl⟩
    · rfl
    · exact exhausted

end Job

/-! ## Steps of cadences -/

namespace Enrollment
variable {e e' : Enrollment} {j : Job}

/-- An enrollment that waited for a job went on, so that nobody waits for the job any more. -/
theorem idle_of_paced (heven : w.saved.timetable = w.tables.timetable)
    (hj : j ∈ w.tables.jobs) (hfor : j.IsFor e) (h : World.Paced cancels w v)
    (he' : e' ∈ v.tables.enrollments) (hid : e'.id = e.id)
    (hnot : e'.status = .active → e'.pendingJob ≠ some j.id) : v.tables.timetable.Idle j.id := by
  obtain ⟨j', hj', hsame⟩ := (h.stored heven).sameTask hj
  have sound := h.timely.current
  rw [← hsame.id]
  refine sound.idle_of_isFor hj' (hsame.isFor hfor) fun r hr hrid hactive => ?_
  have heq : r = e' := sound.eq_of_enrollment hr he' (hrid.trans hid.symm)
  subst heq
  rw [hsame.id]
  exact hnot hactive

/-- How a job that was waited for keeps the pace; if it succeeds, nobody waits for it any more. -/
abbrev Serving (cancels : Uuid → Prop) (job : Uuid) (part : Flow α) (w : World) : Prop :=
  Ends part w (fun _ v => World.Paced cancels w v ∧ v.tables.timetable.Idle job)
    fun _ v => World.Paced cancels w v.rolledBack

/-- An enrollment that goes on either is completed or waits for another job. -/
theorem advance_yields (hw : w.Timely cancels) (he : e ∈ w.tables.enrollments)
    (hactive : e.status = .active) (steps : List CadenceStep) :
    Yields (e.advance steps) w fun e' v => World.Paced cancels w v ∧ e' ∈ v.tables.enrollments
      ∧ e'.id = e.id ∧ ∀ j ∈ w.tables.jobs, e'.pendingJob ≠ some j.id := by
  unfold advance
  refine .step (a := w.clock.wall) (t := w) rfl ?_
  dsimp only
  split
  · refine (store_ends _ w).yields.bind fun _ v hv => .pure ?_
    rw [hv]
    have none_waits : ∀ j ∈ w.tables.jobs, (none : Option Uuid) ≠ some j.id := fun _ _ => nofun
    refine ⟨paced_overwrite hw he (.completeLast hactive _) nofun, ?_, rfl, none_waits⟩
    exact mem_overwrite he rfl
  · have found : Looks (stepAt steps (e.step + 1)) := .stepAt anyCause _ _
    refine found.yields fun s => (openStep_yields _ s _ w).mono ?_
    rintro e' v ⟨due, j, u, opened⟩
    have paced : World.Paced cancels w v := opened.paced hw he (by
      rw [opened.moved]
      exact .advance hactive j.id due)
    have hid : e'.id = e.id := by rw [opened.moved]
    refine ⟨paced, ?_, hid, fun k hk hpending => ?_⟩
    · rw [opened.world, opened.added.world]
      exact mem_overwrite he hid.symm
    · rw [opened.moved, Option.some.injEq] at hpending
      exact hw.given.jobs.free k hk (hpending.symm.trans opened.added.id)

section Awaited
variable (hw : w.Timely cancels) (heven : w.saved.timetable = w.tables.timetable)
variable (hj : j ∈ w.tables.jobs) (he : e ∈ w.tables.enrollments) (hactive : e.status = .active)
variable (hpending : e.pendingJob = some j.id)
include hw heven hj he hactive hpending

theorem serving_haltFor (reason : String) : Serving cancels j.id (e.haltFor reason) w := by
  have hlive : e.status.isLive = true := by rw [hactive]; rfl
  have hfor := hw.current.isFor he hlive hj hpending
  have halted := hw.ends (incidental_halt e reason none) (halt_yields hw he hlive reason none)
  refine halted.bind (fun _ _ h => h) fun _ v _ ⟨paced, hv⟩ => .step (a := ()) rfl (.pure ?_)
  have kept := paced.trans paced.timely.committed
  have hmem : e.stop reason ∈ v.committed.tables.enrollments := by
    show e.stop reason ∈ v.tables.enrollments
    rw [hv]
    exact mem_overwrite he rfl
  exact ⟨kept, idle_of_paced heven hj hfor kept hmem rfl nofun⟩

/-- After the run of a step the enrollment goes on, unless it waits for the job no more. -/
theorem serving_carryOut (steps : List CadenceStep) (s : CadenceStep) (record : Record) :
    Serving cancels j.id (e.carryOut j.id steps s record) w := by
  have hlive : e.status.isLive = true := by rw [hactive]; rfl
  have hfor := hw.current.isFor he hlive hj hpending
  have goesOn (run : RunResult) (v : World) (h : World.Paced cancels w v) :
      Ends (do
        let current ← fetch Enrollment e.id
        if current.status ≠ .active ∨ current.pendingJob ≠ some j.id then
          commit
          return stepOutcome run e.step current
        let moved ← advance { current with step := e.step } steps
        commit
        return stepOutcome run e.step moved : Flow Fields) v
        (fun _ u => World.Paced cancels w u ∧ u.tables.timetable.Idle j.id)
        fun _ u => World.Paced cancels w u.rolledBack := by
    have undone : World.Paced cancels w v.rolledBack := h.trans h.timely.rolledBack
    refine .fetched (fun _ => undone) fun current hcurrent hid => ?_
    split
    · next hnot =>
      have kept := h.trans h.timely.committed
      refine .step (a := ()) rfl (.pure ⟨kept, ?_⟩)
      refine idle_of_paced heven hj hfor kept hcurrent hid fun hstill hsame => ?_
      exact hnot.elim (fun h => h hstill) fun h => h hsame
    · next hstill =>
      obtain ⟨hcurrentActive, hcurrentJob⟩ := not_or.mp hstill
      replace hcurrentActive := not_ne_iff.mp hcurrentActive
      replace hcurrentJob := not_ne_iff.mp hcurrentJob
      have hstep : current.step = e.step := (h.stored heven).step_eq hw.current he hcurrent hlive
        (by rw [hcurrentActive]; rfl) (hcurrentJob.trans hpending.symm)
      have hsame : { current with step := e.step } = current := by rw [← hstep]
      rw [hsame]
      have advanced := h.timely.ends (incidental_advance current steps)
        (advance_yields h.timely hcurrent hcurrentActive steps)
      refine advanced.bind (fun _ _ hu => h.trans hu) fun moved u _ hmoved => ?_
      obtain ⟨paced, hmem, hmovedId, hother⟩ := hmoved
      have kept := (h.trans paced).trans paced.timely.committed
      refine .step (a := ()) rfl (.pure ⟨kept, ?_⟩)
      obtain ⟨j', hj', hsameTask⟩ := (h.stored heven).sameTask hj
      refine idle_of_paced heven hj hfor kept hmem (hmovedId.trans hid) fun _ => ?_
      exact hsameTask.id ▸ hother j' hj'
  unfold carryOut
  refine .step (a := _) (t := w) rfl (.step (a := w.settings) (t := w) rfl ?_)
  refine (hw.refl.ends (Run.upholds_start _ _ _)).bind (fun _ _ h => h) fun run v _ h => ?_
  split
  · have undone : World.Paced cancels w v.rolledBack := h.trans h.timely.rolledBack
    split
    · exact .of_error rfl undone
    · exact .of_error rfl undone
  · exact goesOn run v h

theorem serving_proceed : Serving cancels j.id (e.proceed j.id) w := by
  have hlive : e.status.isLive = true := by rw [hactive]; rfl
  have hfor := hw.current.isFor he hlive hj hpending
  have undone : World.Paced cancels w w.rolledBack := hw.rolledBack
  unfold proceed
  refine .fetched (fun _ => undone) fun c _ _ => ?_
  have read : Looks c.readSteps := .valid anyCause _
  refine read.followed (fun _ => undone) fun steps => ?_
  split
  · refine .step (a := w.clock.wall) (t := w) rfl ?_
    have completed := paced_overwrite hw he (.complete hlive w.clock.wall) nofun
    refine (store_ends _ w).bind (fun _ v h => h.1 ▸ undone) fun _ v _ hv => ?_
    refine .step (a := ()) (t := v.committed) rfl (.pure ?_)
    rw [hv]
    have kept := completed.trans completed.timely.committed
    have hmem : e.complete w.clock.wall
        ∈ w.tables.enrollments.map (overwrite (e.complete w.clock.wall)) :=
      mem_overwrite he rfl
    exact ⟨kept, idle_of_paced heven hj hfor kept hmem rfl nofun⟩
  · have found : Looks (Record.get? e.record) := .recordGet? anyCause _
    refine found.followed (fun _ => undone) fun record => ?_
    cases record with
    | none => exact serving_haltFor hw heven hj he hactive hpending _
    | some record =>
      dsimp only
      split
      · exact serving_haltFor hw heven hj he hactive hpending _
      · have next : Looks (stepAt steps e.step) := .stepAt anyCause _ _
        refine next.followed (fun _ => undone) fun s => ?_
        exact serving_carryOut hw heven hj he hactive hpending steps s record

end Awaited

/-- The job of a step is discarded only if nobody waits for it. -/
theorem serving_processStep (hw : w.Timely cancels)
    (heven : w.saved.timetable = w.tables.timetable) (hj : j ∈ w.tables.jobs) :
    Serving cancels j.id (processStep j.id j.payload) w := by
  unfold processStep
  cases hread : (j.payload.demand "enrollment_id" >>= Value.identifier) with
  | error cause => exact .of_error rfl hw.rolledBack
  | ok id =>
    refine .step (a := id) (t := w) rfl (.step (find?_eq id w) ?_)
    cases hfound : w.tables.enrollments.find? (fun e => Stored.id e = id) with
    | none =>
      refine .pure ⟨hw.refl, hw.current.idle_of_read hj hread fun e he hid => ?_⟩
      have hne := List.find?_eq_none.mp hfound e he
      exact absurd (decide_eq_true hid) hne
    | some e =>
      have he : e ∈ w.tables.enrollments := List.mem_of_find?_eq_some hfound
      have hid : e.id = id := id_of_find? hfound
      have idle (hnot : e.status = .active → e.pendingJob ≠ some j.id) :
          w.tables.timetable.Idle j.id :=
        hw.current.idle_of_read hj hread fun r hr hrid => by
          have heq : r = e := hw.current.eq_of_enrollment hr he (hrid.trans hid.symm)
          exact heq ▸ hnot
      dsimp only
      split
      · next hstale => exact .pure ⟨hw.refl, idle fun _ => hstale⟩
      · next hpending =>
        split
        · next hstatus => exact .pure ⟨hw.refl, idle fun hactive => absurd hactive hstatus⟩
        · next hactive =>
          exact serving_proceed hw heven hj he (not_ne_iff.mp hactive) (not_ne_iff.mp hpending)

end Enrollment

/-! ## Sweeps -/

namespace Job
variable {j : Job}

/-- Whatever a job does, nobody waits for it once its handler has succeeded. -/
theorem serving_handle (hw : w.Timely cancels) (heven : w.saved.timetable = w.tables.timetable)
    (hj : j ∈ w.tables.jobs) : Enrollment.Serving cancels j.id j.handle w := by
  have other (hkind : j.kind ≠ cadenceKind) {part : Flow Fields}
      (hpart : Upholds (Paces cancels) part) : Enrollment.Serving cancels j.id part w := by
    refine (hw.refl.ends hpart).mono (fun _ v h => ⟨h, ?_⟩) fun _ _ h => h
    obtain ⟨j', hj', hsame⟩ := (h.stored heven).sameTask hj
    exact hsame.id ▸ h.timely.current.idle_of_kind hj' (hsame.kind ▸ hkind)
  have refused : World.Paced cancels w w.rolledBack := hw.rolledBack
  unfold handle
  refine .step (a := w.wiring) (t := w) rfl (.guarded (fun _ => refused) fun _ => ?_)
  refine .ite (fun h => other ?_ (Workflow.upholds_resumeDelayed _)) fun _ => ?_
  · rw [h]
    decide
  refine .ite (fun h => other ?_ (Workflow.upholds_retryAction _)) fun _ => ?_
  · rw [h]
    decide
  refine .ite (fun h => other ?_ (Abiding.serves _ _)) fun _ => ?_
  · rw [h]
    decide
  exact .ite (fun _ => Enrollment.serving_processStep hw heven hj) fun _ => .throw refused

theorem pacing_runClaimed (hw : w.Timely cancels) (heven : w.saved.timetable = w.tables.timetable)
    (id : Uuid) : Pacing cancels (runClaimed id) w := by
  have counted (j : Job) : Upholds (Paces cancels) (do
      count (.job j.kind JobOutcome.completed.name)
      return JobOutcome.completed : Flow JobOutcome) :=
    .bind (Incidental.upholds (incidental_count _)) fun _ => .pure _
  unfold runClaimed
  refine .fetched (fun _ => hw.rolledBack) fun j hj hid => ?_
  refine .step (a := w.ambient) (t := w) rfl ?_
  have begun (c : Option String) : World.Paced cancels w (w.under c) := hw.refl.outside rfl rfl rfl
  have served (c : Option String) : Enrollment.Serving cancels j.id j.handle (w.under c) :=
    serving_handle (begun c).timely heven hj
  refine Ends.correlated
    (?_ : Ends _ _ (fun _ v => World.Paced cancels w v) fun _ v =>
      World.Paced cancels w v.rolledBack)
    (fun _ _ _ h => h.outside rfl rfl rfl) fun _ _ _ h => h.outside rfl rfl rfl
  refine (served _).orFailure (fun output v h => ?_) fun cause v h => ?_
  · obtain ⟨kept, idle⟩ := h
    have paced := (begun _).trans kept
    refine .fetched (fun _ => paced.trans paced.timely.rolledBack) fun done hdone hdoneId => ?_
    refine .step (a := v.clock.wall) (t := v) rfl ?_
    have same : done.id = j.id := hdoneId.trans hid.symm
    have idle : v.tables.timetable.Idle done.id := same ▸ idle
    refine Ends.mono (saved_ends paced.timely hdone ?_ (.inr idle) (counted j)) ?_ ?_
    · exact ⟨rfl, rfl, rfl⟩
    · exact fun _ _ hu => paced.trans hu
    · exact fun _ _ hu => paced.trans hu
  · have paced := (begun _).trans h
    have recorded : Upholds (Paces cancels) (recordFailure id cause) :=
      pacing_recordFailure id cause
    refine (recovers_failure j.kind recorded v).mono ?_ ?_
    · exact fun _ _ hu => paced.trans (hu paced.timely)
    · exact fun _ _ hu => paced.trans (hu paced.timely)

/-- A claim is saved at once. -/
theorem claimPending_yields (id : Uuid) (worker : Option String) (w : World) :
    Yields (claimPending id worker) w fun _ v => v.saved.timetable = v.tables.timetable :=
  .step rfl (.step rfl (.step rfl (.step rfl (.pure rfl))))

theorem pacing_process (cutoff : Instant) (limit : Option Int) (worker : Option String) :
    Upholds (Paces cancels) (process cutoff limit worker) := by
  have each (ids : List Uuid) (s : Sweep) : Upholds (Paces cancels) (runEach worker ids s) := by
    induction ids generalizing s with
    | nil => exact .pure s
    | cons id rest ih =>
      unfold runEach
      refine upholds_of_timely fun w hw => ?_
      have claimed := (hw.refl.ends (pacing_claimPending id worker)).and
        (claimPending_yields id worker w)
      refine claimed.bind (fun _ _ h => h.1) ?_
      rintro won v - ⟨paced, even⟩
      split
      · refine (pacing_runClaimed paced.timely even id).bind (fun _ _ h => paced.trans h) ?_
        exact fun outcome u _ h => (paced.trans h).ends (ih _)
      · exact paced.ends (ih _)
  have due (limit : Int) : Looks (dueIds cutoff limit) := by
    unfold dueIds Record.limited
    refine .bind (.all Job) fun rows => .bind ?_ fun _ => .pure _
    exact .bind (.taken anyCause _) fun _ => .pure _
  exact .bind (.looks .settings) fun _ => .bind (.looks (due _)) fun ids => each ids _

end Job

end RecordFlow
