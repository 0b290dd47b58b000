import RecordFlow.Proofs.Approval.Upheld
import RecordFlow.Proofs.Cadence.Timetable
import RecordFlow.Proofs.Store.Rows

/-! # How operations pace the timetable

What is saved is a sound timetable, and what is stored follows from it by turns, so that undoing is
always possible. Enrolling, ending, pausing and resuming keep it so, and so does whatever does not
touch enrollments and jobs.
-/
namespace RecordFlow
open RecordFlow.Flow Calendar
variable {cancels : Uuid → Prop} {w v u : World} {α β : Type}

structure Timetable.Given (t : Timetable) (enrollment job : Nat) : Prop where
  enrollments : Numbered .enrollment enrollment (t.enrollments.map Enrollment.id)
  jobs : Numbered .job job (t.jobs.map Job.id)

theorem Timetable.Given.mono {t : Timetable} {m n m' n' : Nat} (h : t.Given m n) (hm : m ≤ m')
    (hn : n ≤ n') : t.Given m' n' :=
  ⟨h.enrollments.mono hm, h.jobs.mono hn⟩

/-- The timetable that is saved is sound, and the one that is stored follows from it. -/
structure World.Timely (cancels : Uuid → Prop) (w : World) : Prop where
  sound : w.saved.timetable.Sound cancels
  turns : Timetable.Turns cancels w.saved.timetable w.tables.timetable
  given : w.tables.timetable.Given (w.nextNumber .enrollment) (w.nextNumber .job)

structure World.Paced (cancels : Uuid → Prop) (w v : World) : Prop where
  timely : v.Timely cancels
  turns : Timetable.Turns cancels w.saved.timetable v.saved.timetable

def Paces (cancels : Uuid → Prop) (w v : World) : Prop := w.Timely cancels → World.Paced cancels w v

namespace World

theorem Timely.current (hw : w.Timely cancels) : w.tables.timetable.Sound cancels :=
  hw.turns.sound hw.sound

theorem Timely.refl (hw : w.Timely cancels) : Paced cancels w w := ⟨hw, .refl⟩

theorem Paced.trans (h : Paced cancels w v) (h' : Paced cancels v u) : Paced cancels w u :=
  ⟨h'.timely, h.turns.trans h'.turns⟩

/-- What is saved was given numbers as well, for its rows are still there. -/
theorem Timely.savedGiven (hw : w.Timely cancels) :
    w.saved.timetable.Given (w.nextNumber .enrollment) (w.nextNumber .job) where
  enrollments := ⟨hw.sound.enrollments, fun id hid => by
    obtain ⟨e, he, rfl⟩ := List.mem_map.mp hid
    obtain ⟨e', he', hcourse⟩ := hw.turns.course he
    exact hcourse.id ▸ hw.given.enrollments.given _ (List.mem_map_of_mem he')⟩
  jobs := ⟨hw.sound.jobs, fun id hid => by
    obtain ⟨j, hj, rfl⟩ := List.mem_map.mp hid
    obtain ⟨j', hj', hsame⟩ := hw.turns.sameTask hj
    exact hsame.id ▸ hw.given.jobs.given _ (List.mem_map_of_mem hj')⟩

/-- Nothing is saved, and what is stored goes on by turns. -/
theorem Timely.turn (hw : w.Timely cancels) (hsaved : v.saved = w.saved)
    (hturns : Timetable.Turns cancels w.tables.timetable v.tables.timetable)
    (hgiven : v.tables.timetable.Given (v.nextNumber .enrollment) (v.nextNumber .job)) :
    Paced cancels w v := by
  refine ⟨⟨hsaved ▸ hw.sound, ?_, hgiven⟩, hsaved ▸ .refl⟩
  rw [hsaved]
  exact hw.turns.trans hturns

theorem Timely.committed (hw : w.Timely cancels) : Paced cancels w w.committed :=
  ⟨⟨hw.current, .refl, hw.given⟩, hw.turns⟩

theorem Timely.rolledBack (hw : w.Timely cancels) : Paced cancels w w.rolledBack :=
  ⟨⟨hw.sound, .refl, hw.savedGiven⟩, .refl⟩

theorem Timely.of_timetable (hw : w.Timely cancels) (hsaved : v.saved.timetable = w.saved.timetable)
    (htables : v.tables.timetable = w.tables.timetable)
    (hnumbers : ∀ t, w.nextNumber t ≤ v.nextNumber t) : Paced cancels w v := by
  refine ⟨⟨hsaved ▸ hw.sound, ?_, ?_⟩, hsaved ▸ .refl⟩
  · rw [hsaved, htables]
    exact hw.turns
  · rw [htables]
    exact hw.given.mono (hnumbers _) (hnumbers _)

/-- Whatever was not saved is undone. -/
theorem Timely.undone (hw : w.Timely cancels) {writes : Bool} (h : Beside writes w v) :
    Paced cancels w v.rolledBack := by
  have back : Paced cancels w.rolledBack v.rolledBack :=
    hw.rolledBack.timely.of_timetable (congrArg Tables.timetable h.saved)
      (congrArg Tables.timetable h.saved) h.numbers
  exact hw.rolledBack.trans back

end World

/-! ## What does not touch enrollments and jobs -/

instance : IsPreorder World (Paces cancels) where
  refl _ hw := hw.refl
  trans _ _ _ h h' hw := (h hw).trans (h' (h hw).timely)

instance : Undoes World.rolledBack (Paces cancels) where
  undone _ hw := hw.rolledBack

theorem paces_of_tables (htables : v.tables = w.tables) (hsaved : v.saved = w.saved)
    (hnumbers : v.numbers = w.numbers) : Paces cancels w v := fun hw =>
  hw.of_timetable (by rw [hsaved]) (by rw [htables]) fun t =>
    Nat.le_of_eq (World.nextNumber_congr hnumbers t).symm

theorem World.Paced.outside (h : World.Paced cancels w v) (htables : u.tables = v.tables)
    (hsaved : u.saved = v.saved) (hnumbers : u.numbers = v.numbers) : World.Paced cancels w u :=
  h.trans (paces_of_tables htables hsaved hnumbers h.timely)

instance : Lenient (Paces cancels) where
  numbered w t hw := hw.of_timetable rfl rfl (w.nextNumber_le_useNumber t)
  unstored _ _ h _ := paces_of_tables h.tables h.saved h.numbers

/-- Any other table may be written to. -/
theorem indifferent_of_timetable {ρ : Type} [Stored ρ]
    (h : ∀ (rows : List ρ) (t : Tables), (Stored.setRows rows t).timetable = t.timetable) :
    Indifferent (Paces cancels) ρ :=
  ⟨fun rows w hw => hw.of_timetable rfl (h rows w.tables) fun _ => Nat.le_refl _⟩

instance : Indifferent (Paces cancels) Run := indifferent_of_timetable fun _ _ => rfl

/-- An operation that fails before anything is saved is undone. -/
theorem World.Timely.ends {part : Flow α} {ok : α → World → Prop} (hw : w.Timely cancels)
    (hpart : Incidental (Beside true) part) (hok : Yields part w ok) :
    Ends part w ok fun _ v => World.Paced cancels w v.rolledBack :=
  ((hpart w).and hok).mono (fun _ _ h => h.2) fun _ _ h => hw.undone h.1.2

/-- An operation keeps the pace if it does so from every timely world. -/
theorem upholds_of_timely {part : Flow α} (h : ∀ w : World, w.Timely cancels →
    Ends part w (fun _ v => World.Paced cancels w v) fun _ v => World.Paced cancels w v.rolledBack) :
    Upholds (Paces cancels) part := fun w => by
  cases hp : part w with
  | ok a v => exact .of_ok hp fun hw => (h w hw).ok_of hp
  | error e v => exact .of_error hp fun hw => (h w hw).bad_of hp

/-! ## Jobs that are scheduled -/

structure Job.Added (kind : String) (payload : Value) (w : World) (j : Job) (v : World) : Prop where
  id : j.id = TableName.job.rowId (w.nextNumber .job)
  kind : j.kind = kind
  payload : j.payload = payload
  status : j.status = .pending
  attempt : j.attempt = 0
  world : v = (w.useNumber .job).setRows (w.tables.jobs ++ [j])

theorem Job.add_ends (d : Job.Draft) (w : World) :
    Ends (Job.add d) w (Job.Added d.kind d.payload w)
      (fun e v => v = w.useNumber .job ∧ e.isLimit = false) := by
  refine .step rfl (.step rfl (.step rfl ?_))
  refine (insertTaken_ends _ _ w).mono ?_ fun _ _ h => h
  rintro j v ⟨hj, hv⟩
  cases hj
  exact ⟨rfl, rfl, rfl, rfl, rfl, hv⟩

theorem Job.Added.paced {kind : String} {payload : Value} {j : Job}
    (h : Job.Added kind payload w j v) (hw : w.Timely cancels) : World.Paced cancels w v := by
  have hnew : ∀ k ∈ w.tables.timetable.jobs, k.id ≠ j.id := fun k hk =>
    h.id ▸ hw.given.jobs.free k hk
  have numbered := (hw.given.jobs.append h.id).mono (Nat.le_of_eq (w.nextNumber_used .job).symm)
  have kept := hw.given.enrollments.mono (w.nextNumber_le_useNumber .job .enrollment)
  rw [h.world]
  exact hw.turn rfl (.single (.schedule j hnew)) ⟨kept, numbered⟩

instance : Schedules (Paces cancels) where
  schedule d := by
    have added : Incidental (Paces cancels) (Job.add d) := fun w => by
      refine (Job.add_ends d w).mono (fun _ _ h => h.paced) fun e v h => ⟨h.2, ?_⟩
      rw [h.1]
      exact Lenient.numbered w .job
    unfold Job.schedule
    split
    · refine .ite added (.bind (.all Job) fun jobs => ?_)
      split
      · exact .pure _
      · exact added
    · exact added

/-- Jobs are worked on, and serve the enrollments that wait for them. -/
theorem Job.paced_work {change : Job → Job} (hw : w.Timely cancels)
    (hsame : ∀ j ∈ w.tables.jobs, j.SameTask (change j))
    (hwork : ∀ j ∈ w.tables.jobs, change j = j ∨ (change j).Serves cancels
      ∨ w.tables.timetable.Idle j.id) :
    World.Paced cancels w (w.setRows (w.tables.jobs.map change)) := by
  have numbered := hw.given.jobs.map fun j hj => (hsame j hj).id
  exact hw.turn rfl (.single (.work change hsame hwork)) ⟨hw.given.enrollments, numbered⟩

/-! ## Steps that are opened -/

namespace Enrollment
variable {e e' : Enrollment}

/-- An enrollment that stands in the timetable goes on, and waits for a job that is there if it is
still live. -/
theorem paced_overwrite (hw : w.Timely cancels) (he : e ∈ w.tables.enrollments) (hgoes : e.Goes e')
    (hattends : e'.status.isLive = true → w.tables.timetable.Attends cancels e') :
    World.Paced cancels w (w.setRows (w.tables.enrollments.map (overwrite e'))) := by
  have hid : e'.id = e.id := hgoes.same.1
  have numbered := hw.given.enrollments.map fun r _ => id_overwrite e' r
  refine hw.turn rfl (.single (.go (overwrite e') fun r hr => ?_)) ⟨numbered, hw.given.jobs⟩
  by_cases hr' : r.id = e'.id
  · have heq : r = e := hw.current.eq_of_enrollment hr he (hr'.trans hid)
    subst heq
    rw [overwrite_of_eq hr']
    exact .inr ⟨hgoes, hattends⟩
  · exact .inl (overwrite_of_ne hr')

/-- The next step of an enrollment is opened: a job was added, and the enrollment waits for it. -/
structure Opened (e : Enrollment) (due : Instant) (w : World) (j : Job) (u : World)
    (e' : Enrollment) (v : World) : Prop where
  added : Job.Added cadenceKind e.ticket w j u
  moved : e' = { e with pendingJob := some j.id, nextStepDueAt := some due }
  world : v = u.setRows (u.tables.enrollments.map (overwrite e'))

theorem scheduleStep_yields (e : Enrollment) (due : Instant) (w : World) :
    Yields (e.scheduleStep due) w fun e' v => ∃ j u, Opened e due w j u e' v := by
  refine (Job.add_ends _ w).yields.bind fun j u added => ?_
  refine (store_ends _ u).yields.bind fun _ v hv => ?_
  exact .pure ⟨j, u, added, rfl, hv⟩

theorem openStep_yields (e : Enrollment) (s : CadenceStep) (start : Instant) (w : World) :
    Yields (e.openStep s start) w fun e' v => ∃ due j u, Opened e due w j u e' v := by
  have looked : Looks (inTime (s.dueAfter start)) := .inTime anyCause _
  exact looked.yields fun due => (scheduleStep_yields e due w).mono fun _ _ h => ⟨due, h⟩

/-- The enrollment has the job that was added. -/
theorem Opened.attends {due : Instant} {j : Job} (h : Opened e due w j u e' v) :
    u.tables.timetable.Attends cancels e' := by
  have hfor : j.IsFor e' := ⟨h.added.kind, by rw [h.added.payload, h.moved]; rfl⟩
  have hmem : j ∈ u.tables.timetable.jobs := by
    rw [h.added.world]
    exact List.mem_append_right _ List.mem_cons_self
  exact ⟨j, hmem, by rw [h.moved], hfor, fun _ => .pending h.added.status⟩

theorem Opened.paced {r : Enrollment} {due : Instant} {j : Job} (h : Opened e due w j u e' v)
    (hw : w.Timely cancels) (hr : r ∈ w.tables.enrollments) (hgoes : r.Goes e') :
    World.Paced cancels w v := by
  have added := h.added.paced hw
  have hr' : r ∈ u.tables.enrollments := by
    rw [h.added.world]
    exact hr
  rw [h.world]
  exact added.trans (paced_overwrite added.timely hr' hgoes fun _ => h.attends)

end Enrollment

/-! ## Enrolling, ending, pausing and resuming

Each of these keeps the pace: it is a turn or two of the timetable, and it is undone if it fails. So
whatever runs and decisions do keeps the pace as well.
-/

namespace Enrollment
variable {e e' : Enrollment}

/-! ## Enrolling -/

/-- A row for an enrollment that is active was inserted, and its first step is opened. -/
theorem Opened.enrolled {r : Enrollment} {due : Instant} {j : Job} (hw : w.Timely cancels)
    (hid : r.id = TableName.enrollment.rowId (w.nextNumber .enrollment))
    (hactive : r.status = .active)
    (hsole : ∀ e ∈ w.tables.enrollments, e.isLiveFor r.cadence r.record = false)
    (hu : u = (w.useNumber .enrollment).setRows (w.tables.enrollments ++ [r]))
    {x : World} (h : Opened r due u j x e' v) : World.Paced cancels w v := by
  have hother : (w.useNumber .enrollment).nextNumber .job = w.nextNumber .job :=
    (w.nextNumber_useNumber .enrollment .job).trans (if_neg (by decide))
  have hnumber : j.id = TableName.job.rowId (w.nextNumber .job) := by
    rw [h.added.id, hu, ← hother]
    rfl
  have hnew : ∀ e ∈ w.tables.enrollments, e.id ≠ e'.id := by
    rw [h.moved]
    exact hid ▸ hw.given.enrollments.free
  have hnewJob : ∀ k ∈ w.tables.jobs, k.id ≠ j.id := hnumber ▸ hw.given.jobs.free
  have henrollments : v.tables.enrollments = w.tables.enrollments ++ [e'] := by
    have kept : w.tables.enrollments.map (overwrite e') = w.tables.enrollments :=
      (List.map_congr_left fun e he => overwrite_of_ne (hnew e he)).trans (List.map_id' _)
    have last : overwrite e' r = e' := overwrite_of_eq (by rw [h.moved]; rfl)
    rw [h.world, h.added.world, hu]
    show (w.tables.enrollments ++ [r]).map (overwrite e') = _
    rw [List.map_append, kept, List.map_singleton, last]
  have hjobs : v.tables.jobs = w.tables.jobs ++ [j] := by
    rw [h.world, h.added.world, hu]
    rfl
  have htimetable : v.tables.timetable = ⟨w.tables.enrollments ++ [e'], w.tables.jobs ++ [j]⟩ := by
    rw [Tables.timetable, henrollments, hjobs]
  have attended : Timetable.Attends cancels ⟨w.tables.enrollments, w.tables.jobs ++ [j]⟩ e' :=
    (h.attends : x.tables.timetable.Attends cancels e').mono fun k hk => by
      rw [h.added.world, hu] at hk
      exact hk
  refine hw.turn (by rw [h.world, h.added.world, hu]; rfl) ?_ ?_
  · rw [htimetable]
    refine .tail (.single (.schedule j hnewJob)) (.enroll e' hnew ?_ ?_ attended)
    · rw [h.moved]
      exact hactive
    · rw [h.moved]
      exact hsole
  · have henrollment : e'.id = TableName.enrollment.rowId (w.nextNumber .enrollment) := by
      rw [h.moved]
      exact hid
    have usedJob : w.nextNumber .job + 1
        ≤ ((w.useNumber .enrollment).useNumber .job).nextNumber .job :=
      Nat.le_of_eq (by rw [World.nextNumber_used, hother])
    have usedEnrollment : w.nextNumber .enrollment + 1
        ≤ ((w.useNumber .enrollment).useNumber .job).nextNumber .enrollment :=
      (w.nextNumber_used .enrollment).symm ▸ World.nextNumber_le_useNumber _ .job .enrollment
    rw [htimetable, h.world, h.added.world, hu]
    exact ⟨(hw.given.enrollments.append henrollment).mono usedEnrollment,
      (hw.given.jobs.append hnumber).mono usedJob⟩

theorem enroll_yields (hw : w.Timely cancels) (cadence record : Uuid) (enrolledBy : Value) :
    Yields (enroll cadence record enrolledBy) w fun _ v => World.Paced cancels w v := by
  have fetched : Looks (fetch Cadence cadence) := .fetch anyCause Cadence cadence
  unfold enroll
  refine fetched.yields fun c => .guarded fun _ => ?_
  have read : Looks c.readSteps := .valid anyCause _
  refine read.yields fun steps => ?_
  cases steps with
  | nil => exact .throw
  | cons first rest =>
    refine .step (a := w.tables.enrollments) (t := w) rfl ?_
    refine .guarded fun hnone => .step (a := w.clock.wall) (t := w) rfl ?_
    refine (insertTaken_ends _ _ w).yields.bind ?_
    rintro r u ⟨hrow, hu⟩
    refine (openStep_yields r first _ u).bind ?_
    rintro e' v ⟨due, j, x, opened⟩
    have paced : World.Paced cancels w v := by
      cases hby : Cell.text enrolledBy with
      | error cause =>
        rw [hby] at hrow
        cases hrow
      | ok by_ =>
        rw [hby] at hrow
        cases hrow
        have hsole : ∀ e ∈ w.tables.enrollments, e.isLiveFor cadence record = false := by
          simpa using hnone
        exact opened.enrolled hw rfl rfl hsole hu
    exact .step rfl (.pure (paced.outside rfl rfl rfl))

/-! ## Ending -/

/-- A live enrollment is stopped, and its job is cancelled if it is still pending. -/
theorem halt_yields (hw : w.Timely cancels) (he : e ∈ w.tables.enrollments)
    (hlive : e.status.isLive = true) (reason : String) (actor : Option String) :
    Yields (e.halt reason actor) w fun _ v => World.Paced cancels w v
      ∧ v.tables.enrollments = w.tables.enrollments.map (overwrite (e.stop reason)) := by
  obtain ⟨j, hj, hpending, hfor, -⟩ := hw.current.attended e he hlive
  have stopped := paced_overwrite hw he (.stop hlive reason) nofun
  let u := w.setRows (w.tables.enrollments.map (overwrite (e.stop reason)))
  have idle : u.tables.timetable.Idle j.id := by
    refine stopped.timely.current.idle_of_isFor hj hfor fun r hr hid hactive => ?_
    have heq : r = e.stop reason := eq_of_mem_overwrite hr hid
    rw [heq] at hactive
    cases hactive
  have cancelled : World.Paced cancels u (u.setRows (u.tables.jobs.map
      fun k => if (k.id = j.id && k.isPending) = true then k.cancel w.clock.wall else k)) := by
    refine Job.paced_work stopped.timely (fun k _ => ?_) fun k hk => ?_
    · split
      · exact ⟨rfl, rfl, rfl⟩
      · exact .refl k
    · split
      · next h =>
        have hid : k.id = j.id := by simpa using (Bool.and_eq_true_iff.mp h).1
        exact .inr (.inr (hid ▸ idle))
      · exact .inl rfl
  unfold halt
  rw [hpending]
  refine .step (a := _) (t := w.setRows _) rfl ?_
  refine (store_ends (e.stop reason) _).yields.bind fun _ v hv => .of_ok fun _ x hx => ?_
  cases hx
  rw [hv]
  have paced := stopped.trans cancelled
  exact ⟨paced.outside rfl rfl rfl, rfl⟩

theorem haltEach_yields (reason : String) (actor : Option String) (live : List Enrollment)
    (hw : w.Timely cancels) (hthere : ∀ e ∈ live, e ∈ w.tables.enrollments)
    (hlive : ∀ e ∈ live, e.status.isLive = true) (hdistinct : (live.map Enrollment.id).Nodup) :
    Yields (forIn live PUnit.unit fun e _ => do
      e.halt reason actor
      return ForInStep.yield PUnit.unit) w fun _ v => World.Paced cancels w v := by
  induction live generalizing w with
  | nil => exact .pure hw.refl
  | cons e rest ih =>
    rw [List.map_cons, List.nodup_cons] at hdistinct
    have hhead := hthere e List.mem_cons_self
    have halted : Yields (do
        e.halt reason actor
        return ForInStep.yield PUnit.unit) w fun step v => step = .yield PUnit.unit
          ∧ World.Paced cancels w v
          ∧ v.tables.enrollments = w.tables.enrollments.map (overwrite (e.stop reason)) :=
      (halt_yields hw hhead (hlive e List.mem_cons_self) reason actor).bind
        fun _ _ h => .pure ⟨rfl, h⟩
    rw [List.forIn_cons]
    refine halted.bind ?_
    rintro _ v ⟨rfl, paced, hv⟩
    have kept : ∀ r ∈ rest, r ∈ v.tables.enrollments := by
      intro r hr
      have hne : r.id ≠ (e.stop reason).id := fun hid =>
        hdistinct.1 (hid ▸ List.mem_map_of_mem hr)
      have heq : overwrite (e.stop reason) r = r := overwrite_of_ne hne
      rw [hv, ← heq]
      exact List.mem_map_of_mem (hthere r (List.mem_cons_of_mem e hr))
    exact (ih paced.timely kept (fun r hr => hlive r (List.mem_cons_of_mem e hr)) hdistinct.2).mono
      fun _ _ h => paced.trans h

theorem unenroll_yields (hw : w.Timely cancels) (record : Uuid) (cadence : Option Uuid)
    (reason : String) (actor : Option String) :
    Yields (unenroll record cadence reason actor) w fun _ v => World.Paced cancels w v := by
  have live : ∀ e ∈ w.tables.enrollments.filter (fun e => e.record = record && e.status.isLive
      && cadence.all (· = e.cadence)), e.status.isLive = true := by
    intro e he
    have test := (List.mem_filter.mp he).2
    simp only [Bool.and_eq_true] at test
    exact test.1.2
  unfold unenroll
  refine .step (a := w.tables.enrollments) (t := w) rfl ?_
  refine (haltEach_yields reason actor _ hw (fun e he => (List.mem_filter.mp he).1) live ?_).bind
    fun _ v h => .pure h
  exact hw.current.enrollments.sublist (List.filter_sublist.map _)

/-! ## Pausing and resuming -/

theorem pause_yields (hw : w.Timely cancels) (id : Uuid) (actor : Option String) :
    Yields (pause id actor) w fun _ v => World.Paced cancels w v := by
  unfold pause
  refine .fetched fun e he _ => .guarded fun hstatus => ?_
  have hactive : e.status = .active := not_ne_iff.mp hstatus
  obtain ⟨j, hj, hpending, hfor, -⟩ := hw.current.attended e he (by rw [hactive]; rfl)
  have paused := paced_overwrite hw he (.pause hactive) fun _ =>
    ⟨j, hj, hpending, ⟨hfor.kind, hfor.payload⟩, nofun⟩
  refine (store_ends _ w).yields.bind fun _ v hv => .step rfl (.pure ?_)
  rw [hv]
  exact paused.outside rfl rfl rfl

theorem resume_yields (hw : w.Timely cancels) (id : Uuid) (actor : Option String) :
    Yields (resume id actor) w fun _ v => World.Paced cancels w v := by
  have audited (e r : Enrollment) (v : World) (h : World.Paced cancels w v) : Yields (do
      r.audit "cadence.resumed" (some e.state) (.ofOption actor)
      return r) v fun _ v => World.Paced cancels w v :=
    .step rfl (.pure (h.outside rfl rfl rfl))
  unfold resume
  refine .fetched fun e he _ => .guarded fun hstatus => ?_
  have hpaused : e.status = .paused := not_ne_iff.mp hstatus
  have fetched : Looks (fetch Cadence e.cadence) := .fetch anyCause Cadence _
  refine fetched.yields fun c => ?_
  have read : Looks c.readSteps := .valid anyCause _
  refine read.yields fun steps => .step (a := w.clock) (t := w) rfl ?_
  split
  · have completed := paced_overwrite hw he (.complete (by rw [hpaused]; rfl) w.clock.wall) nofun
    refine (store_ends _ w).yields.bind fun _ v hv => audited e _ v ?_
    rw [hv]
    exact completed
  · have found : Looks (stepAt steps e.step) := .stepAt anyCause _ _
    refine found.yields fun _ => (scheduleStep_yields _ _ w).bind ?_
    rintro r v ⟨j, x, opened⟩
    refine audited e r v (opened.paced hw he ?_)
    rw [opened.moved]
    exact .resume hpaused j.id _

end Enrollment

/-! ## What runs and decisions do -/

theorem upholds_of_yields {α : Type} {part : Flow α} (hpart : Incidental (Beside true) part)
    (h : ∀ w : World, w.Timely cancels → Yields part w fun _ v => World.Paced cancels w v) :
    Upholds (Paces cancels) part :=
  upholds_of_timely fun w hw => hw.ends hpart (h w hw)

theorem paces_committed (w : World) : Paces cancels w w.committed := fun hw => hw.committed

theorem Run.pacing_openRun (c : Context) : Upholds (Paces cancels) (Run.openRun c) :=
  .bind (.looks .ambient) fun _ => .bind (.of_keeps (incidental_insertIf _ _)) fun _ =>
    .bind (.modify paces_committed) fun _ => .pure _

instance : Timeless (Paces cancels) where
  adjusts _ _ _ _ _ _ := paces_of_tables rfl rfl rfl

instance : Tolerant (Paces cancels) where
  records := indifferent_of_timetable fun _ _ => rfl
  children := indifferent_of_timetable fun _ _ => rfl
  cooldowns := indifferent_of_timetable fun _ _ => rfl
  rules := indifferent_of_timetable fun _ _ => rfl
  messages := indifferent_of_timetable fun _ _ => rfl
  cadences := indifferent_of_timetable fun _ _ => rfl
  workflows := indifferent_of_timetable fun _ _ => rfl
  outside _ _ h := paces_of_tables h.tables h.saved h.numbers
  amongst := amongst_of_tables fun _ _ => paces_of_tables
  commits := paces_committed
  undone _ hw := hw.rolledBack
  opens := Run.pacing_openRun
  savesRun w id change _ := by
    have written : Paces cancels w (w.setRows (Run.changeRow id change w.tables.runs)) :=
      Indifferent.setRows _ w
    exact trans_of (Paces cancels) written (paces_committed _)
  enrolls cadence record by_ := upholds_of_yields (incidental_enroll cadence record by_)
    fun _ hw => Enrollment.enroll_yields hw cadence record by_
  unenrolls record cadence reason actor :=
    upholds_of_yields (incidental_unenroll record cadence reason actor)
      fun _ hw => Enrollment.unenroll_yields hw record cadence reason actor

instance : Aloof (Paces cancels) where
  approvals := indifferent_of_timetable fun _ _ => rfl
  entries := indifferent_of_timetable fun _ _ => rfl
  stageChanges := indifferent_of_timetable fun _ _ => rfl
  blueprints := indifferent_of_timetable fun _ _ => rfl
  processes := indifferent_of_timetable fun _ _ => rfl

theorem Enrollment.pacing_pause (id : Uuid) (actor : Option String) :
    Upholds (Paces cancels) (Enrollment.pause id actor) :=
  upholds_of_yields (incidental_pause id actor) fun _ hw => Enrollment.pause_yields hw id actor

theorem Enrollment.pacing_resume (id : Uuid) (actor : Option String) :
    Upholds (Paces cancels) (Enrollment.resume id actor) :=
  upholds_of_yields (incidental_resume id actor) fun _ hw => Enrollment.resume_yields hw id actor

end RecordFlow
