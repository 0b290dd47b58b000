import RecordFlow.Proofs.Calendar.Period
import RecordFlow.Proofs.Job.Attempt

/-! # Sweeps that settle what they claim

A job that was claimed is running until the end of its attempt is written down. It is written down as
long as the numbers of the job have a place in their columns and the time of another attempt, where
there is to be one, is one of the calendar; the wait before it doubles with every attempt. Otherwise
the sweep breaks off, and the job goes on running.
-/
namespace RecordFlow
open RecordFlow.Flow Calendar
variable {w v u : World}

/-! ## What stands still -/

structure Still (w v : World) : Prop where
  clock : v.clock = w.clock
  settings : v.settings = w.settings

instance : IsPreorder World Still where
  refl _ := ⟨rfl, rfl⟩
  trans _ _ _ h h' := ⟨h'.clock.trans h.clock, h'.settings.trans h.settings⟩

instance {ρ : Type} [Stored ρ] : Indifferent Still ρ := ⟨fun _ _ => ⟨rfl, rfl⟩⟩

instance : Lenient Still where
  numbered _ _ := ⟨rfl, rfl⟩
  unstored _ _ h _ := ⟨h.clock, h.settings⟩

instance : Undoes World.rolledBack Still where
  undone _ := ⟨rfl, rfl⟩

instance : Tolerant Still where
  records := inferInstance
  children := inferInstance
  cooldowns := inferInstance
  rules := inferInstance
  messages := inferInstance
  cadences := inferInstance
  workflows := inferInstance
  outside _ _ h := ⟨h.clock, h.settings⟩
  amongst _ _ _ h := ⟨h.clock, h.settings⟩
  commits _ := ⟨rfl, rfl⟩
  undone _ := ⟨rfl, rfl⟩
  opens c := by
    refine .bind (.looks .ambient) fun _ => .bind (.of_keeps (incidental_insertIf _ _)) fun _ => ?_
    exact .bind (.modify fun _ => ⟨rfl, rfl⟩) fun _ => .pure _
  savesRun _ _ _ _ := ⟨rfl, rfl⟩
  enrolls cadence record by_ := .of_keeps (incidental_enroll cadence record by_)
  unenrolls record cadence reason actor :=
    .of_keeps (incidental_unenroll record cadence reason actor)

namespace Job
variable {j k l : Job} {jobs jobs' jobs'' : List Job} {outcome : JobOutcome} {t : Instant}

/-! ## Attempts that are written down -/

def retryAt (w : World) (j : Job) : Except OutOfRange Instant :=
  backoff w.settings.backoffSeconds j.attempt >>= w.clock.wall.add?

theorem retryAt_congr (h : Still w v) (j : Job) : j.retryAt v = j.retryAt w := by
  rw [retryAt, h.clock, h.settings, retryAt]

theorem retryAt_eq (h : j.retryAt w = .ok t) : ∃ wait,
    backoff w.settings.backoffSeconds j.attempt = .ok wait ∧ w.clock.wall.add? wait = .ok t := by
  unfold retryAt at h
  cases hwait : backoff w.settings.backoffSeconds j.attempt with
  | error cause => rw [hwait] at h; cases h
  | ok wait => exact ⟨wait, rfl, by rw [hwait] at h; exact h⟩

/-- The wait doubles with every attempt, as far as the calendar reaches. -/
theorem retryAt_of_inRange (hbase : 0 ≤ w.settings.backoffSeconds) (hattempt : 0 ≤ j.attempt)
    (hnow : w.clock.wall.inRange = true)
    (hthen : (w.clock.wall.add (w.settings.backoffSeconds * Int.pow 2 j.attempt.toNat
      * microsPerSecond)).inRange = true) :
    j.retryAt w = .ok (w.clock.wall.add (w.settings.backoffSeconds * Int.pow 2 j.attempt.toNat
      * microsPerSecond)) := by
  have hwait : 0 ≤ w.settings.backoffSeconds * Int.pow 2 j.attempt.toNat :=
    Int.mul_nonneg hbase (Int.le_of_lt (Int.pow_pos (by decide)))
  have hcounted : w.settings.backoffSeconds * Int.pow 2 j.attempt.toNat < uncounted := by
    have hfirst := (w.clock.wall.inRange_iff.mp hnow).1
    have hlast := ((Instant.inRange_iff _).mp hthen).2
    unfold Instant.add microsPerSecond at hlast
    unfold uncounted
    dsimp only at hlast
    omega
  rw [retryAt, backoff, if_pos hattempt, seconds?_eq hwait hcounted]
  exact if_pos hthen

-- In 1970 and by the standard settings the calendar reaches beyond 31 attempts.
example : let w := World.initial ⟨⟨0⟩, 0⟩ .standard .complete []
    (retryAt w { (default : Job) with attempt := 31 }).toOption.isSome = true
      ∧ (retryAt w { (default : Job) with attempt := 32 }).toOption.isNone = true := by
  decide +kernel

theorem retryAt_later (hbase : 0 < w.settings.backoffSeconds) (hattempt : 0 ≤ j.attempt)
    (h : j.retryAt w = .ok t) : w.clock.wall < t := by
  obtain ⟨wait, hwait, hadd⟩ := retryAt_eq h
  rw [backoff, if_pos hattempt] at hwait
  have hpos : 0 < w.settings.backoffSeconds * Int.pow 2 j.attempt.toNat * microsPerSecond :=
    Int.mul_pos (Int.mul_pos hbase (Int.pow_pos (by decide))) (by decide)
  rw [Instant.eq_of_add? hadd, eq_of_seconds? hwait]
  exact Int.lt_add_of_pos_right _ hpos

/-- The end of an attempt of the job can be written down. -/
structure IsTimely (w : World) (j : Job) : Prop where
  sized : (Stored.wholes j).all Cell.fits = true
  due : j.mayRetry = true → ∃ t, j.retryAt w = .ok t

/-- A job is timely if the calendar reaches to the end of its wait. -/
theorem IsTimely.of_inRange (hsized : (Stored.wholes j).all Cell.fits = true)
    (hbase : 0 ≤ w.settings.backoffSeconds) (hattempt : 0 ≤ j.attempt)
    (hnow : w.clock.wall.inRange = true)
    (hthen : (w.clock.wall.add (w.settings.backoffSeconds * Int.pow 2 j.attempt.toNat
      * microsPerSecond)).inRange = true) : j.IsTimely w :=
  ⟨hsized, fun _ => ⟨_, retryAt_of_inRange hbase hattempt hnow hthen⟩⟩

theorem IsTimely.congr (hj : j.IsTimely w) (h : Still w v) : j.IsTimely v :=
  ⟨hj.sized, fun hretry => by rw [retryAt_congr h]; exact hj.due hretry⟩

inductive EndsAs (w : World) (j : Job) : JobOutcome → Job → Prop
  | complete (result : Fields) : EndsAs w j .completed (j.complete result w.clock.wall)
  | postpone (h : j.mayRetry = true) (error : String) {t : Instant} (ht : j.retryAt w = .ok t) :
    EndsAs w j .rescheduled (j.postpone error t)
  | fail (h : j.mayRetry = false) (error : String) :
    EndsAs w j .failed (j.fail error w.clock.wall)

namespace EndsAs

theorem congr (hk : EndsAs v j outcome k) (h : Still w v) : EndsAs w j outcome k := by
  cases hk with
  | complete result =>
    rw [h.clock]
    exact .complete result
  | postpone hretry error ht => exact .postpone hretry error (retryAt_congr h j ▸ ht)
  | fail hretry error =>
    rw [h.clock]
    exact .fail hretry error

theorem id (h : EndsAs w j outcome k) : k.id = j.id := by cases h <;> rfl

theorem later (h : EndsAs w j .rescheduled k) (hbase : 0 < w.settings.backoffSeconds)
    (hattempt : 0 ≤ j.attempt) : w.clock.wall < k.runAt := by
  cases h with
  | postpone hretry error ht => exact retryAt_later hbase hattempt ht

theorem not_running (h : EndsAs w j outcome k) : k.status ≠ .running := by cases h <;> exact nofun

end EndsAs

theorem fetch_eq (hw : w.Queued) (hj : j ∈ w.tables.jobs) : fetch Job j.id w = .ok j w := by
  refine fetch_of_find? ?_
  cases hfind : (Stored.rows w.tables).find? fun r : Job => Stored.id r = j.id with
  | none => exact absurd (decide_eq_true rfl) (List.find?_eq_none.mp hfind j hj)
  | some r =>
    exact congrArg some (hw.numbered.eq_of_id (List.mem_of_find?_eq_some hfind) hj (id_of_find? hfind))

theorem stored_mem (hj : j ∈ w.tables.jobs) (hid : k.id = j.id) :
    k ∈ (w.setRows (w.tables.jobs.map (overwrite k))).tables.jobs :=
  mem_overwrite hj hid.symm

theorem recordFailure_settles (hw : w.Queued) (hj : j ∈ w.tables.jobs) (htimely : j.IsTimely w)
    (cause : Failure) : Ends (recordFailure j.id cause) w
      (fun outcome v => Still w v ∧ ∃ k ∈ v.tables.jobs, EndsAs w j outcome k) fun _ _ => False := by
  have kept {k : Job} (outcome : JobOutcome) (hk : EndsAs w j outcome k)
      (hsized : (Stored.wholes k).all Cell.fits = true) : Ends (do
        store k
        commit
        return outcome : Flow JobOutcome) w
      (fun outcome v => Still w v ∧ ∃ k ∈ v.tables.jobs, EndsAs w j outcome k)
      fun _ _ => False := by
    refine .step (store_eq hsized w) (.step (a := ()) rfl (.pure ⟨⟨rfl, rfl⟩, k, ?_, hk⟩))
    exact stored_mem hj hk.id
  unfold recordFailure
  refine .step (fetch_eq hw hj) (.step (a := w.clock.wall) (t := w) rfl ?_)
  split
  · next hretry =>
    obtain ⟨t, ht⟩ := htimely.due hretry
    obtain ⟨wait, hwait, hadd⟩ := retryAt_eq ht
    refine .step (a := w.settings) (t := w) rfl ?_
    refine .step (a := wait) (t := w) (by rw [hwait]; rfl) ?_
    refine .step (a := t) (t := w) (by rw [hadd]; rfl) ?_
    exact kept .rescheduled (.postpone hretry _ ht) htimely.sized
  · next hretry => exact kept .failed (.fail (Bool.eq_false_iff.mpr hretry) _) htimely.sized

section Conclude
variable {m : World}

theorem succeed_settles (hm : m.Queued) (hj : j ∈ m.tables.jobs)
    (hsized : (Stored.wholes j).all Cell.fits = true) (output : Fields) :
    Ends (j.succeed output) m
      (fun outcome v => Still m v ∧ ∃ k ∈ v.tables.jobs, EndsAs m j outcome k) fun _ _ => False := by
  have hdone : (Stored.wholes (j.complete output m.clock.wall)).all Cell.fits = true := hsized
  unfold succeed
  refine .step (fetch_eq hm hj) (.step (a := m.clock.wall) (t := m) rfl ?_)
  refine .step (store_eq hdone m) ?_
  refine .step (a := ()) rfl (.step (a := ()) rfl (.pure ⟨⟨rfl, rfl⟩, _, ?_, .complete output⟩))
  exact stored_mem hj rfl

theorem giveUp_settles (hm : m.rolledBack.Queued) (hj : j ∈ m.saved.jobs) (htimely : j.IsTimely m)
    (cause : Failure) : Ends (j.giveUp cause) m
      (fun outcome v => Still m v ∧ ∃ k ∈ v.tables.jobs, EndsAs m j outcome k) fun _ _ => False := by
  have undone : Still m m.rolledBack := ⟨rfl, rfl⟩
  unfold giveUp
  refine .step (a := ()) (t := m.rolledBack) rfl ?_
  refine (recordFailure_settles hm hj (htimely.congr undone) cause).orFailure ?_ fun _ _ h => h.elim
  rintro outcome v ⟨hstill, k, hk, hends⟩
  exact .step (a := ()) rfl (.pure ⟨⟨hstill.clock, hstill.settings⟩, k, hk, hends.congr undone⟩)

/-- Whatever the handler does, the end of the attempt is written down. -/
theorem conclude_settles (hw : w.Queued) (heven : w.saved = w.tables) (hj : j ∈ w.tables.jobs)
    (hrunning : j.status = .running) (htimely : j.IsTimely w) {handler : Flow Fields}
    (hrests : Resting handler) (hstill : Upholds Still handler) :
    Ends (j.conclude handler) w
      (fun outcome v => Settles j w outcome v ∧ Still w v
        ∧ ∃ k ∈ v.tables.jobs, EndsAs w j outcome k)
      fun _ _ => False := by
  have hnot : j.status ≠ .pending := by rw [hrunning]; exact nofun
  have begun (c : Option String) : w.Rested (w.under c) := jobsRest_of_tables rfl rfl rfl hw
  have rested {u : World} (h : w.Rested u) : AllRest w.tables.jobs u.saved.jobs := by
    rw [← heven]
    exact h.rested
  have settled : Ends (j.conclude handler) w
      (fun outcome v => Still w v ∧ ∃ k ∈ v.tables.jobs, EndsAs w j outcome k)
      fun _ _ => False := by
    unfold conclude
    refine .step (a := w.ambient) (t := w) rfl ?_
    refine Ends.correlated (?_ : Ends _ _ (fun outcome v => Still w v
      ∧ ∃ k ∈ v.tables.jobs, EndsAs w j outcome k) fun _ _ => False) (fun _ v c h => ?_)
      fun _ _ _ h => h
    · refine ((hrests _).and (hstill _)).orFailure (fun output m hm => ?_) fun cause m hm => ?_
      · have hmid := (begun _).trans (hm.1 (begun _).queued)
        have same : Still w m := ⟨hm.2.clock, hm.2.settings⟩
        have hrest := (rested hmid).trans hmid.queued.rested
        refine (succeed_settles hmid.queued (hrest.mem_of_status hj hnot) htimely.sized output).mono
          ?_ fun _ _ h => h
        rintro outcome v ⟨hv, k, hk, hends⟩
        exact ⟨trans_of Still same hv, k, hk, hends.congr same⟩
      · have hmid := (begun _).trans (hm.1 (begun _).queued)
        have same : Still w m := ⟨hm.2.clock, hm.2.settings⟩
        have saved : j ∈ m.saved.jobs := (rested hmid).mem_of_status hj hnot
        refine (giveUp_settles hmid.queued saved (htimely.congr same) cause).mono ?_ fun _ _ h => h
        rintro outcome v ⟨hv, k, hk, hends⟩
        exact ⟨trans_of Still same hv, k, hk, hends.congr same⟩
    · exact ⟨⟨h.1.clock, h.1.settings⟩, h.2⟩
  exact ((conclude_ends hw heven hj hrunning hrests).and settled).mono (fun _ _ h => h) fun _ _ h => h.2

end Conclude

/-- A failed attempt that is to be followed by another at a time beyond the calendar is not written
down. -/
theorem recordFailure_stuck (hw : w.Queued) (hj : j ∈ w.tables.jobs) (hretry : j.mayRetry = true)
    {beyond : OutOfRange} (ht : j.retryAt w = .error beyond) (cause : Failure) :
    Ends (recordFailure j.id cause) w (fun _ _ => False) fun e v => e = .time beyond ∧ v = w := by
  have fails {α β : Type} {x : Except OutOfRange α} (hx : x = .error beyond) (rest : α → Flow β) :
      Ends (inTime x >>= rest) w (fun _ _ => False) fun e v => e = .time beyond ∧ v = w := by
    subst hx
    exact .of_error rfl ⟨rfl, rfl⟩
  unfold retryAt at ht
  unfold recordFailure
  refine .step (fetch_eq hw hj) (.step (a := w.clock.wall) (t := w) rfl ?_)
  rw [if_pos hretry]
  refine .step (a := w.settings) (t := w) rfl ?_
  cases hwait : backoff w.settings.backoffSeconds j.attempt with
  | error first =>
    rw [hwait] at ht
    exact fails (congrArg _ (Except.error.inj ht)) _
  | ok wait =>
    rw [hwait] at ht
    exact .step (a := wait) (t := w) rfl (fails ht _)

/-- The job goes on running then, whatever its handler did. -/
theorem giveUp_stuck {m : World} (hm : m.rolledBack.Queued) (hj : j ∈ m.saved.jobs)
    (hretry : j.mayRetry = true) {beyond : OutOfRange} (ht : j.retryAt m = .error beyond)
    (cause : Failure) : Ends (j.giveUp cause) m (fun _ _ => False) fun e v =>
      e = .time beyond ∧ v.tables = m.saved ∧ v.saved = m.saved := by
  unfold giveUp
  refine .step (a := ()) (t := m.rolledBack) rfl ?_
  refine (recordFailure_stuck hm hj hretry ht cause).orFailure (fun _ _ h => h.elim) ?_
  rintro e v ⟨rfl, rfl⟩
  exact .step (a := ()) rfl (.throw ⟨rfl, rfl, rfl⟩)

/-! ## Jobs that a sweep goes through -/

/-- What becomes of a job while a sweep goes through some: it rests, or it is pending and its turn
comes, and the end of its attempt is written down. Where its turn comes it is not left pending. -/
inductive Passes (w : World) (ids : List Uuid) : Job → Job → Prop
  | rest {j k : Job} (h : j.Rests k) (hdone : j.id ∈ ids → k.status ≠ .pending) : Passes w ids j k
  | attempt {j k l : Job} {outcome : JobOutcome} (hid : j.id ∈ ids) (hpending : j.status = .pending)
    (worker : String) (t : Instant) (h : EndsAs w (j.claim worker t) outcome k) (hrest : k.Rests l) :
    Passes w ids j l

namespace Passes
variable {id : Uuid} {ids : List Uuid}

theorem id_eq (h : Passes w ids j k) : k.id = j.id := by
  cases h with
  | rest h => exact h.id
  | attempt _ _ _ _ h hrest => exact hrest.id.trans h.id

theorem rests (h : Passes w ids j k) (hid : j.id ∉ ids) : j.Rests k := by
  cases h with
  | rest h => exact h
  | attempt hmem => exact absurd hmem hid

theorem eq_of_running (h : Passes w ids j k) (hrunning : k.status = .running) : k = j := by
  cases h with
  | rest h =>
    cases h with
    | stay => rfl
    | cancel => cases hrunning
  | attempt _ _ _ _ h hrest =>
    cases hrest with
    | stay => exact absurd hrunning h.not_running
    | cancel => cases hrunning

theorem congr (h : Passes v ids j k) (hv : Still w v) : Passes w ids j k := by
  cases h with
  | rest h hdone => exact .rest h hdone
  | attempt hid hpending worker t h hrest => exact .attempt hid hpending worker t (h.congr hv) hrest

theorem trans (hid : id ∉ ids) (h : Passes w [id] j k) (h' : Passes w ids k l) :
    Passes w (id :: ids) j l := by
  cases h with
  | attempt hmem hpending worker t h hrest =>
    obtain rfl := List.mem_singleton.mp hmem
    have later : k.Rests l := h'.rests (by rwa [hrest.id, h.id])
    exact .attempt List.mem_cons_self hpending worker t h (hrest.trans later)
  | rest h hdone =>
    cases h' with
    | attempt hmem hpending worker t h' hrest =>
      cases h with
      | stay => exact .attempt (List.mem_cons_of_mem _ hmem) hpending worker t h' hrest
      | cancel => cases hpending
    | rest h' hdone' =>
      refine .rest (h.trans h') fun hmem => ?_
      rcases List.mem_cons.mp hmem with heq | hmem
      · have hnot := hdone (List.mem_singleton.mpr heq)
        rwa [h'.eq_of_status hnot]
      · exact hdone' (h.id ▸ hmem)

end Passes

structure AllPass (w : World) (ids : List Uuid) (jobs jobs' : List Job) : Prop where
  kept : ∀ j ∈ jobs, ∃ k ∈ jobs', Passes w ids j k
  origin : ∀ k ∈ jobs', (∃ j ∈ jobs, Passes w ids j k) ∨ k.Untried ∧ ∀ j ∈ jobs, j.id ≠ k.id

namespace AllPass
variable {id : Uuid} {ids : List Uuid}

theorem nil (jobs : List Job) : AllPass w [] jobs jobs where
  kept j hj := ⟨j, hj, .rest (.stay j) nofun⟩
  origin j hj := .inl ⟨j, hj, .rest (.stay j) nofun⟩

theorem congr (h : AllPass v ids jobs jobs') (hv : Still w v) : AllPass w ids jobs jobs' where
  kept j hj := (h.kept j hj).imp fun _ hk => hk.imp_right fun hpass => hpass.congr hv
  origin k hk := (h.origin k hk).imp_left fun hj => hj.imp fun _ hj => hj.imp_right (·.congr hv)

theorem mem_of_running (h : AllPass w ids jobs jobs') (hk : k ∈ jobs')
    (hrunning : k.status = .running) : k ∈ jobs := by
  rcases h.origin k hk with ⟨j, hj, hpass⟩ | ⟨huntried, -⟩
  · exact hpass.eq_of_running hrunning ▸ hj
  · rcases huntried.status with h | h <;> rw [h] at hrunning <;> cases hrunning

/-- A sweep goes through the first job that it listed, and then through the others. -/
theorem cons (hid : id ∉ ids) (hlisted : ∀ i ∈ ids, ∃ j ∈ jobs, j.id = i)
    (h : AllPass w [id] jobs jobs') (h' : AllPass w ids jobs' jobs'') :
    AllPass w (id :: ids) jobs jobs'' where
  kept j hj := by
    obtain ⟨k, hk, hjk⟩ := h.kept j hj
    obtain ⟨l, hl, hkl⟩ := h'.kept k hk
    exact ⟨l, hl, hjk.trans hid hkl⟩
  origin l hl := by
    rcases h'.origin l hl with ⟨k, hk, hkl⟩ | ⟨huntried, hnew⟩
    · rcases h.origin k hk with ⟨j, hj, hjk⟩ | ⟨huntried, hnew⟩
      · exact .inl ⟨j, hj, hjk.trans hid hkl⟩
      · have unlisted : k.id ∉ ids := fun hmem => by
          obtain ⟨j, hj, heq⟩ := hlisted _ hmem
          exact hnew j hj heq
        exact .inr ⟨huntried.rests (hkl.rests unlisted), fun j hj => hkl.id_eq ▸ hnew j hj⟩
    · refine .inr ⟨huntried, fun j hj => ?_⟩
      obtain ⟨k, hk, hjk⟩ := h.kept j hj
      exact hjk.id_eq ▸ hnew k hk

end AllPass

/-! ## Sweeps -/

/-- A job is passed over only if it is not pending. -/
theorem claimPending_misses (hids : (w.tables.jobs.map Job.id).Nodup) (id : Uuid)
    (worker : Option String) :
    Ends (claimPending id worker) w
      (fun won _ => won = false → ∀ j ∈ w.tables.jobs, j.id = id → j.status ≠ .pending)
      fun _ _ => False := by
  unfold claimPending
  refine .step (a := w.clock.wall) (t := w) rfl (.step (a := w.settings) (t := w) rfl ?_)
  refine .step (updateWhere_eq _ _ w) (.step (a := ()) rfl (.pure fun hmissed j hj hid hpending => ?_))
  rcases change_pending hids id (claim "" w.clock.wall) fun _ => rfl with ⟨-, -, -, -, hn, -⟩ | ⟨hn, -⟩
  · exact of_decide_eq_false hmissed hn
  · have picked : j ∈ w.tables.jobs.filter fun k => k.id = id && k.isPending := by
      refine List.mem_filter.mpr ⟨hj, ?_⟩
      rw [Bool.and_eq_true_iff, isPending_iff, decide_eq_true_iff]
      exact ⟨hid, hpending⟩
    exact absurd hn (Nat.ne_of_gt (List.length_pos_of_mem picked))

structure Turn (w : World) (id : Uuid) (v : World) : Prop where
  queued : v.Queued
  saved : v.saved = v.tables
  still : Still w v
  jobs : AllPass w [id] w.tables.jobs v.tables.jobs

structure Claimed (w : World) (j : Job) (claimant : String) (t : Instant) (m : World) : Prop where
  replaced : Replaced w j (j.claim claimant t) m
  queued : m.Queued
  saved : m.saved = m.tables
  still : Still w m

/-- A job that is listed is claimed, or its turn is over. -/
theorem claimPending_settles (hw : w.Queued) (id : Uuid) (worker : Option String) :
    Ends (claimPending id worker) w
      (fun won v => won = true ∧ (∃ j claimant t, j.id = id ∧ Claimed w j claimant t v)
        ∨ won = false ∧ Turn w id v)
      fun _ _ => False := by
  have still : Ends (claimPending id worker) w (fun _ v => Still w v) fun _ _ => True :=
    (upholds_claimPending id worker w).mono (fun _ _ h => h) fun _ _ _ => trivial
  have hids := hw.numbered.distinct
  refine (((claimPending_ends hids id worker).and (claimPending_misses hids id worker)).and still).mono
    ?_ fun _ _ h => h.1.1
  rintro won v ⟨⟨⟨hsaved, hend⟩, hmissed⟩, hstill⟩
  have same : v.committed = v := World.committed_of_even hsaved
  rcases hend with ⟨rfl, j, claimant, t, hid, replaced⟩ | ⟨rfl, hjobs, hnumbers⟩
  · have kept : v.tables.jobs.map Job.id = w.tables.jobs.map Job.id := by
      rw [replaced.jobs]
      exact ids_map fun r _ => id_overwrite _ r
    have queued := same ▸ queued_committed hw replaced.numbers kept
    exact .inl ⟨rfl, j, claimant, t, hid, replaced, queued, hsaved, hstill⟩
  · have queued := same ▸ queued_committed hw hnumbers (congrArg (List.map Job.id) hjobs)
    have passed (j : Job) (hj : j ∈ w.tables.jobs) : Passes w [id] j j :=
      .rest (.stay j) fun hmem => hmissed rfl j hj (List.mem_singleton.mp hmem)
    refine .inr ⟨rfl, queued, hsaved, hstill, ?_⟩
    rw [hjobs]
    exact ⟨fun j hj => ⟨j, hj, passed j hj⟩, fun j hj => .inl ⟨j, hj, passed j hj⟩⟩

/-- The attempt of a job that was claimed is settled, and the others rest. -/
theorem Claimed.turn {claimant : String} {m : World} (hw : w.Queued) (h : Claimed w j claimant t m)
    (hsettles : Settles (j.claim claimant t) m outcome v) (hstill : Still m v)
    (hends : ∃ k ∈ v.tables.jobs, EndsAs m (j.claim claimant t) outcome k) : Turn w j.id v := by
  obtain ⟨queued, saved, rested, c, hrest, -, hc, hjobs⟩ := hsettles
  obtain ⟨k, hk, hends⟩ := hends
  obtain rfl : k = c := eq_of_mem_overwrite (hjobs ▸ hk) (hends.id.trans hc.id.symm)
  have tried : Passes w [j.id] j k := .attempt (List.mem_singleton_self _) h.replaced.pending claimant t
    (hends.congr h.still) (.stay k)
  have hid : k.id = j.id := hends.id
  have others {r s : Job} (hr : r.id ≠ j.id) (hrs : r.Rests s) : Passes w [j.id] r s :=
    .rest hrs fun hmem => absurd (List.mem_singleton.mp hmem) hr
  refine ⟨queued, saved, trans_of Still h.still hstill, fun r hr => ?_, fun s hs => ?_⟩
  · by_cases hr' : r.id = j.id
    · rw [hw.numbered.eq_of_id hr h.replaced.mem hr']
      exact ⟨k, hk, tried⟩
    · have standing : r ∈ m.tables.jobs := by
        rw [h.replaced.jobs]
        exact List.mem_map.mpr ⟨r, hr, overwrite_of_ne hr'⟩
      obtain ⟨s, hs, hrs⟩ := hrest.kept r standing
      have hs' : s.id ≠ k.id := by rwa [hrs.id, hid]
      refine ⟨s, ?_, others hr' hrs⟩
      rw [hjobs]
      exact List.mem_map.mpr ⟨s, hs, overwrite_of_ne hs'⟩
  · rw [hjobs] at hs
    obtain ⟨q, hq, rfl⟩ := List.mem_map.mp hs
    by_cases hq' : q.id = k.id
    · rw [overwrite_of_eq hq']
      exact .inl ⟨j, h.replaced.mem, tried⟩
    · rw [overwrite_of_ne hq']
      rcases hrest.origin q hq with ⟨p, hp, hpq⟩ | ⟨huntried, hnew⟩
      · rw [h.replaced.jobs] at hp
        obtain ⟨r, hr, rfl⟩ := List.mem_map.mp hp
        have hr' : r.id ≠ j.id := fun heq => hq' <| calc
          q.id = (overwrite (j.claim claimant t) r).id := hpq.id
          _ = r.id := id_overwrite _ r
          _ = k.id := heq.trans hid.symm
        have same : overwrite (j.claim claimant t) r = r := overwrite_of_ne hr'
        rw [same] at hpq
        exact .inl ⟨r, hr, others hr' hpq⟩
      · refine .inr ⟨huntried, fun r hr => ?_⟩
        have standing : overwrite (j.claim claimant t) r ∈ m.tables.jobs := by
          rw [h.replaced.jobs]
          exact List.mem_map_of_mem hr
        exact fun heq => hnew _ standing ((id_overwrite _ r).trans heq)

theorem runClaimed_settles {claimant : String} {m : World} (hw : w.Queued)
    (h : Claimed w j claimant t m) (htimely : (j.claim claimant t).IsTimely w) :
    Ends (runClaimed j.id) m (fun _ v => Turn w j.id v) fun _ _ => False := by
  have claimed : j.claim claimant t ∈ m.tables.jobs := by
    rw [h.replaced.jobs]
    exact mem_overwrite h.replaced.mem rfl
  have concludes := conclude_settles h.queued h.saved claimed rfl (htimely.congr h.still)
    (upholds_handle (j.claim claimant t)) (upholds_handle _)
  rw [runClaimed_eq]
  refine .step (fetch_eq (j := j.claim claimant t) h.queued claimed) (concludes.mono ?_ fun _ _ h => h)
  rintro outcome v ⟨hsettles, hstill, hends⟩
  exact h.turn hw hsettles hstill hends

/-- Whatever handlers do, a sweep does not fail, and each job that it listed is settled in its turn. -/
theorem runEach_settles (worker : Option String) {ids : List Uuid} (hids : ids.Nodup)
    (hw : w.Queued) (heven : w.saved = w.tables)
    (hlisted : ∀ id ∈ ids, ∃ j ∈ w.tables.jobs, j.id = id)
    (htimely : ∀ j ∈ w.tables.jobs, j.id ∈ ids → j.status = .pending →
      ∀ claimant t, (j.claim claimant t).IsTimely w) (s : Sweep) :
    Ends (runEach worker ids s) w
      (fun _ v => v.Queued ∧ v.saved = v.tables ∧ AllPass w ids w.tables.jobs v.tables.jobs)
      fun _ _ => False := by
  induction ids generalizing w s with
  | nil => exact .pure ⟨hw, heven, .nil _⟩
  | cons id rest ih =>
    obtain ⟨hid, hrest⟩ := List.nodup_cons.mp hids
    have goes {v : World} (turn : Turn w id v) (s : Sweep) : Ends (runEach worker rest s) v
        (fun _ u => u.Queued ∧ u.saved = u.tables
          ∧ AllPass w (id :: rest) w.tables.jobs u.tables.jobs)
        fun _ _ => False := by
      refine (ih hrest turn.queued turn.saved (fun i hi => ?_) (fun k hk hmem hpending => ?_) s).mono
        ?_ fun _ _ h => h
      · obtain ⟨j, hj, rfl⟩ := hlisted i (List.mem_cons_of_mem _ hi)
        obtain ⟨k, hk, hjk⟩ := turn.jobs.kept j hj
        exact ⟨k, hk, hjk.id_eq⟩
      · have unlisted (i : Uuid) (hi : i ∈ rest) : i ∉ [id] := fun heq =>
          hid (List.mem_singleton.mp heq ▸ hi)
        rcases turn.jobs.origin k hk with ⟨j, hj, hjk⟩ | ⟨-, hnew⟩
        · have hrests := hjk.rests (unlisted _ (hjk.id_eq ▸ hmem))
          cases hrests with
          | stay =>
            have timely := htimely k hj (List.mem_cons_of_mem _ hmem) hpending
            exact fun claimant t => (timely claimant t).congr turn.still
          | cancel => cases hpending
        · obtain ⟨j, hj, heq⟩ := hlisted _ (List.mem_cons_of_mem _ hmem)
          exact absurd heq (hnew j hj)
      · rintro s u ⟨queued, saved, jobs⟩
        refine ⟨queued, saved, turn.jobs.cons hid ?_ (jobs.congr turn.still)⟩
        exact fun i hi => hlisted i (List.mem_cons_of_mem _ hi)
    unfold runEach
    refine (claimPending_settles hw id worker).bind (fun _ _ h => h) ?_
    rintro won m - (⟨rfl, j, claimant, t, rfl, claimed⟩ | ⟨rfl, turn⟩)
    · have timely := htimely j claimed.replaced.mem List.mem_cons_self claimed.replaced.pending
      refine (runClaimed_settles hw claimed (timely claimant t)).bind (fun _ _ h => h) ?_
      exact fun outcome v _ turn => goes turn _
    · exact goes turn _

/-- What is due is listed unless the limit is too large for the store. -/
theorem dueNow_eq (cutoff : Instant) {limit : Option Int}
    (hlimit : Cell.fits (givenOr limit w.settings.sweepBatch) = true) :
    ∃ ids, dueNow cutoff limit w = .ok ids w := by
  have limited {α : Type} {n : Int} (hn : Cell.fits n = true) (rows : List α) :
      Ends (Record.limited n rows) w (fun _ v => v = w) fun _ _ => False := by
    unfold Record.limited
    exact .step (a := n) (t := w) (by rw [Cell.bounded, if_pos hn]; rfl) (.pure rfl)
  have listed : Ends (dueNow cutoff limit) w (fun _ v => v = w) fun _ _ => False := by
    unfold dueNow dueIds
    refine .step (a := w.settings) (t := w) rfl (.step (a := w.tables.jobs) (t := w) rfl ?_)
    exact (limited hlimit _).bind (fun _ _ h => h) fun _ _ _ h => .pure h
  obtain ⟨ids, _, hids, rfl⟩ := listed.exists_ok
  exact ⟨ids, hids⟩

/-- A sweep does not fail if every job that is due can be settled, whatever handlers do. Each job that
it listed is settled in its turn, and all is saved. -/
theorem process_settles (hw : w.Queued) (heven : w.saved = w.tables) {cutoff : Instant}
    {limit : Option Int} (hlimit : Cell.fits (givenOr limit w.settings.sweepBatch) = true)
    (htimely : ∀ j ∈ w.tables.jobs, j.status = .pending → j.runAt ≤ cutoff →
      ∀ claimant t, (j.claim claimant t).IsTimely w) (worker : Option String) :
    ∃ ids, dueNow cutoff limit w = .ok ids w
      ∧ Ends (process cutoff limit worker) w
        (fun _ v => v.saved = v.tables ∧ AllPass w ids w.tables.jobs v.tables.jobs)
        fun _ _ => False := by
  obtain ⟨ids, hdue⟩ := dueNow_eq cutoff hlimit
  obtain ⟨-, hdistinct, hids⟩ := (dueNow_ends hw.numbered.distinct cutoff limit).ok_of hdue
  have settles := runEach_settles worker hdistinct hw heven
    (fun id hid => (hids id hid).imp fun j hj => ⟨hj.1, hj.2.1⟩) (fun j hj hmem hpending => ?_) .start
  · refine ⟨ids, hdue, ?_⟩
    rw [process_eq]
    exact .step hdue (settles.mono (fun _ _ h => h.2) fun _ _ h => h)
  · obtain ⟨k, hk, hid, hrunAt⟩ := hids j.id hmem
    obtain rfl : k = j := hw.numbered.eq_of_id hk hj hid
    exact htimely k hj hpending hrunAt

/-- Where no job was running before such a sweep, none is running after it. -/
theorem process_idle (hw : w.Queued) (heven : w.saved = w.tables) {cutoff : Instant}
    {limit : Option Int} (hlimit : Cell.fits (givenOr limit w.settings.sweepBatch) = true)
    (htimely : ∀ j ∈ w.tables.jobs, j.status = .pending → j.runAt ≤ cutoff →
      ∀ claimant t, (j.claim claimant t).IsTimely w) (worker : Option String)
    (hidle : ∀ j ∈ w.tables.jobs, j.status ≠ .running) :
    Ends (process cutoff limit worker) w (fun _ v => ∀ j ∈ v.tables.jobs, j.status ≠ .running)
      fun _ _ => False := by
  obtain ⟨ids, -, settles⟩ := process_settles hw heven hlimit htimely worker
  refine settles.mono ?_ fun _ _ h => h
  rintro s v ⟨-, jobs⟩ j hj hrunning
  exact hidle j (jobs.mem_of_running hj hrunning) hrunning

end Job

end RecordFlow
