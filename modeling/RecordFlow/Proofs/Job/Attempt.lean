import RecordFlow.Proofs.Job.Queue

/-! # Attempts

A job is claimed or cancelled only if it is pending, by the one operation that finds it so. The attempt
of a job that was claimed ends in one of three ways, whatever its handler does: other jobs only rest.
-/
namespace RecordFlow
open RecordFlow.Flow Calendar
variable {w v : World}

namespace Job
variable {j k : Job} {jobs : List Job}

/-! ## Jobs that are pending -/

/-- A change of the pending job with an identifier changes this job alone, or no job at all. -/
theorem change_pending (hids : (jobs.map Job.id).Nodup) (id : Uuid) (change : Job → Job)
    (hchange : ∀ j, (change j).id = j.id) :
    (∃ j ∈ jobs, j.id = id ∧ j.status = .pending
      ∧ (jobs.filter fun k => k.id = id && k.isPending).length = 1
      ∧ jobs.map (fun k => if (k.id = id && k.isPending) = true then change k else k)
        = jobs.map (overwrite (change j)))
    ∨ (jobs.filter fun k => k.id = id && k.isPending).length = 0
      ∧ jobs.map (fun k => if (k.id = id && k.isPending) = true then change k else k) = jobs := by
  have test (k : Job) : (k.id = id && k.isPending) = true ↔ k.id = id ∧ k.status = .pending := by
    rw [Bool.and_eq_true_iff, isPending_iff, decide_eq_true_iff]
  by_cases h : ∃ j ∈ jobs, j.id = id ∧ j.status = .pending
  · obtain ⟨j, hj, hid, hpending⟩ := h
    have only : ∀ k ∈ jobs, k.id = id → k = j := fun k hk hkid =>
      List.inj_on_of_nodup_map hids hk hj (hkid.trans hid.symm)
    refine .inl ⟨j, hj, hid, hpending, ?_, List.map_congr_left fun k hk => ?_⟩
    · have hmem : j ∈ jobs.filter fun k => k.id = id && k.isPending :=
        List.mem_filter.mpr ⟨hj, (test j).mpr ⟨hid, hpending⟩⟩
      have hsame : ∀ k ∈ jobs.filter (fun k => k.id = id && k.isPending), k = j := fun k hk =>
        only k (List.mem_filter.mp hk).1 ((test k).mp (List.mem_filter.mp hk).2).1
      have hnodup := hids.of_map.filter fun k => k.id = id && k.isPending
      rw [List.eq_replicate_of_mem hsame, List.nodup_replicate] at hnodup
      exact Nat.le_antisymm hnodup (List.length_pos_of_mem hmem)
    · by_cases hk' : k.id = id
      · rw [only k hk hk', if_pos ((test j).mpr ⟨hid, hpending⟩)]
        exact (overwrite_of_eq (hchange j).symm).symm
      · have hne : k.id ≠ (change j).id := by rwa [hchange, hid]
        rw [if_neg fun h => hk' ((test k).mp h).1]
        exact (overwrite_of_ne hne).symm
  · have none_fits : ∀ k ∈ jobs, ¬ (k.id = id && k.isPending) = true := fun k hk hk' =>
      h ⟨k, hk, (test k).mp hk'⟩
    refine .inr ⟨?_, ?_⟩
    · rw [List.filter_eq_nil_iff.mpr none_fits]
      rfl
    · exact (List.map_congr_left fun k hk => if_neg (none_fits k hk)).trans (List.map_id' jobs)

structure Replaced (w : World) (j k : Job) (v : World) : Prop where
  mem : j ∈ w.tables.jobs
  pending : j.status = .pending
  jobs : v.tables.jobs = w.tables.jobs.map (overwrite k)
  numbers : v.numbers = w.numbers

/-- Of all that try to change a pending job only the first one does. -/
theorem updatePending_ends (hids : (w.tables.jobs.map Job.id).Nodup) (id : Uuid)
    (change : Job → Job) (hchange : ∀ j, (change j).id = j.id) :
    Ends (updateWhere (fun j : Job => j.id = id && j.isPending) change) w
      (fun n v => n = 1 ∧ (∃ j, j.id = id ∧ Replaced w j (change j) v)
        ∨ n = 0 ∧ v.tables.jobs = w.tables.jobs ∧ v.numbers = w.numbers)
      fun _ _ => False := by
  refine .of_ok (updateWhere_eq _ _ w) ?_
  rcases change_pending hids id change hchange with ⟨j, hj, hid, hpending, hn, hmap⟩ | ⟨hn, hmap⟩
  · exact .inl ⟨hn, j, hid, hj, hpending, hmap, rfl⟩
  · exact .inr ⟨hn, hmap, rfl⟩

/-- Either a pending job is claimed, or nothing happens to any job. -/
theorem claimPending_ends (hids : (w.tables.jobs.map Job.id).Nodup) (id : Uuid)
    (worker : Option String) :
    Ends (claimPending id worker) w
      (fun won v => v.saved = v.tables
        ∧ (won = true ∧ (∃ j claimant t, j.id = id ∧ Replaced w j (j.claim claimant t) v)
          ∨ won = false ∧ v.tables.jobs = w.tables.jobs ∧ v.numbers = w.numbers))
      fun _ _ => False := by
  unfold claimPending
  refine .step (a := w.clock.wall) (t := w) rfl (.step (a := w.settings) (t := w) rfl ?_)
  refine (updatePending_ends hids id (claim _ w.clock.wall) fun _ => rfl).bind (fun _ _ h => h) ?_
  rintro n v - (⟨rfl, j, hid, replaced⟩ | ⟨rfl, hjobs, hnumbers⟩)
  · have saved : Replaced w j (j.claim _ w.clock.wall) v.committed :=
      ⟨replaced.mem, replaced.pending, replaced.jobs, replaced.numbers⟩
    exact .step (a := ()) (t := v.committed) rfl (.pure ⟨rfl, .inl ⟨rfl, j, _, _, hid, saved⟩⟩)
  · exact .step (a := ()) (t := v.committed) rfl (.pure ⟨rfl, .inr ⟨rfl, hjobs, hnumbers⟩⟩)

/-- A job that is told to be cancelled was pending until then. -/
theorem cancelPending_ends (hids : (w.tables.jobs.map Job.id).Nodup) (id : Uuid) :
    Ends (cancelPending id) w
      (fun won v => won = true → ∃ j t, j.id = id ∧ Replaced w j (j.cancel t) v)
      fun _ _ => False := by
  unfold cancelPending
  refine .step (a := w.clock.wall) (t := w) rfl ?_
  refine (updatePending_ends hids id (cancel w.clock.wall) fun _ => rfl).bind (fun _ _ h => h) ?_
  rintro n v - (⟨rfl, j, hid, replaced⟩ | ⟨rfl, -⟩)
  · exact .pure fun _ => ⟨j, _, hid, replaced⟩
  · exact .pure nofun

/-! ## Jobs that are due -/

def dueNow (cutoff : Instant) (limit : Option Int) : Flow (List Uuid) := do
  dueIds cutoff (givenOr limit (← settings).sweepBatch)

theorem process_eq (cutoff : Instant) (limit : Option Int) (worker : Option String) :
    process cutoff limit worker = (do runEach worker (← dueNow cutoff limit) .start) := by
  simp only [process, dueNow, bind_assoc]

theorem listed_due (hids : (w.tables.jobs.map Job.id).Nodup) {cutoff : Instant} {rows due : List Job}
    (hrows : rows.Sublist due) (hdue : due.Perm (w.tables.jobs.filter (·.isDue cutoff))) :
    (rows.map Job.id).Nodup ∧ ∀ id ∈ rows.map Job.id, ∃ j ∈ w.tables.jobs, j.id = id
      ∧ j.status = .pending ∧ j.runAt ≤ cutoff := by
  refine ⟨?_, fun id hid => ?_⟩
  · have distinct := (hdue.map Job.id).nodup_iff.mpr (hids.sublist (List.filter_sublist.map _))
    exact distinct.sublist (hrows.map Job.id)
  · obtain ⟨j, hj, rfl⟩ := List.mem_map.mp hid
    obtain ⟨hmem, htest⟩ := List.mem_filter.mp (hdue.mem_iff.mp (hrows.subset hj))
    rw [isDue, Bool.and_eq_true_iff, isPending_iff, decide_eq_true_iff] at htest
    exact ⟨j, hmem, rfl, htest⟩

/-- Every job that is listed is due, and none is listed twice. -/
theorem dueNow_ends (hids : (w.tables.jobs.map Job.id).Nodup) (cutoff : Instant)
    (limit : Option Int) :
    Ends (dueNow cutoff limit) w
      (fun ids v => v = w ∧ ids.Nodup ∧ ∀ id ∈ ids, ∃ j ∈ w.tables.jobs, j.id = id
        ∧ j.runAt ≤ cutoff)
      fun _ v => v = w := by
  unfold dueNow dueIds
  refine .step (a := w.settings) (t := w) rfl (.step (a := w.tables.jobs) (t := w) rfl ?_)
  refine (Record.limited_ends _ _ w).bind (fun _ _ h => h) ?_
  rintro rows v - ⟨rfl, hrows⟩
  have sublist {due : List Job} {limit : Int}
      (h : rows = if limit < 0 then due else due.take limit.toNat) : rows.Sublist due := by
    split at h
    · exact h ▸ .refl due
    · exact h ▸ List.take_sublist _ due
  obtain ⟨hdistinct, hdue⟩ := listed_due hids (sublist hrows) (sorted_perm _ _)
  refine .pure ⟨rfl, hdistinct, fun id hid => ?_⟩
  obtain ⟨j, hj, hid, -, hrunAt⟩ := hdue id hid
  exact ⟨j, hj, hid, hrunAt⟩

/-! ## Attempts that end -/

def succeed (j : Job) (output : Fields) : Flow JobOutcome := do
  let done ← fetch Job j.id
  store (done.complete output (← now))
  commit
  count (.job j.kind JobOutcome.completed.name)
  return .completed

/-- Undoes what the handler of a job did before it failed, and writes down the failure. -/
def giveUp (j : Job) (cause : Failure) : Flow JobOutcome := do
  rollback
  match ← orFailure (recordFailure j.id cause) with
  | .ok outcome =>
    count (.job j.kind outcome.name)
    return outcome
  | .error cause =>
    count (.job j.kind JobOutcome.failed.name)
    throw cause

def conclude (j : Job) (handler : Flow Fields) : Flow JobOutcome := do
  let correlation := match j.correlation with
    | some c => if c.isEmpty then none else some c
    | none => none
  correlated (correlation <|> (← ambient).correlation) do
    match ← orFailure handler with
    | .ok output => j.succeed output
    | .error cause => j.giveUp cause

theorem runClaimed_eq (id : Uuid) :
    runClaimed id = (do let j ← fetch Job id; j.conclude j.handle) := by
  funext w
  have found := fetch_ends (ρ := Job) id w
  cases h : fetch Job id w with
  | error e v => rw [runClaimed, bind_error h, bind_error h]
  | ok j v =>
    obtain rfl : j.id = id := id_of_find? (found.ok_of h).2
    rw [runClaimed, bind_ok h, bind_ok h]
    rfl

inductive Concluded (j : Job) : JobOutcome → Job → Prop
  | complete (result : Fields) (t : Instant) : Concluded j .completed (j.complete result t)
  | postpone (h : j.mayRetry = true) (error : String) (runAt : Instant) :
    Concluded j .rescheduled (j.postpone error runAt)
  | fail (h : j.mayRetry = false) (error : String) (t : Instant) :
    Concluded j .failed (j.fail error t)

theorem Concluded.id {outcome : JobOutcome} (h : Concluded j outcome k) : k.id = j.id := by
  cases h <;> rfl

theorem queued_committed (hw : w.Queued) (hnumbers : v.numbers = w.numbers)
    (hids : v.tables.jobs.map Job.id = w.tables.jobs.map Job.id) : v.committed.Queued := by
  have numbered : Numbered .job (v.nextNumber .job) (v.tables.jobs.map Job.id) := by
    rw [hids, World.nextNumber_congr hnumbers]
    exact hw.numbered
  exact ⟨numbered, numbered, .refl _⟩

/-- A failed attempt is written down, or nothing is. -/
theorem recordFailure_ends (hw : w.Queued) (hj : j ∈ w.tables.jobs) (cause : Failure) :
    Ends (recordFailure j.id cause) w
      (fun outcome v => ∃ k, Concluded j outcome k
        ∧ v = (w.setRows (w.tables.jobs.map (overwrite k))).committed)
      fun _ v => v = w := by
  have kept (k : Job) (outcome : JobOutcome) (h : Concluded j outcome k) : Ends (do
      store k
      commit
      return outcome : Flow JobOutcome) w (fun outcome v => ∃ k, Concluded j outcome k
        ∧ v = (w.setRows (w.tables.jobs.map (overwrite k))).committed)
      fun _ v => v = w := by
    refine (store_ends k w).bind (fun _ _ h => h.1) fun _ v _ hv => .step (a := ()) rfl (.pure ?_)
    exact ⟨k, h, by rw [hv]; rfl⟩
  unfold recordFailure
  refine .fetched (fun _ => rfl) fun r hr hid => ?_
  obtain rfl : r = j := hw.numbered.eq_of_id hr hj hid
  refine .step (a := w.clock.wall) (t := w) rfl ?_
  split
  · next hretry =>
    refine .step (a := w.settings) (t := w) rfl ?_
    have waits : Looks (inTime (backoff w.settings.backoffSeconds r.attempt)) := .inTime anyCause _
    refine waits.followed (fun _ => rfl) fun wait => ?_
    have due : Looks (inTime (w.clock.wall.add? wait)) := .inTime anyCause _
    exact due.followed (fun _ => rfl) fun runAt => kept _ _ (.postpone hretry _ _)
  · next hretry => exact kept _ _ (.fail (Bool.eq_false_iff.mpr hretry) _ _)

/-- An attempt ended: the other jobs rest, and all is saved. -/
structure Settles (j : Job) (w : World) (outcome : JobOutcome) (v : World) : Prop where
  queued : v.Queued
  saved : v.saved = v.tables
  jobs : ∃ jobs k, AllRest w.tables.jobs jobs ∧ (jobs.map Job.id).Nodup ∧ Concluded j outcome k
    ∧ v.tables.jobs = jobs.map (overwrite k)

/-- A job that ended is stored over the one that was running, and all is saved. -/
theorem Settles.of_concluded {m : World} {outcome : JobOutcome} (hm : m.Queued)
    (hrest : AllRest w.tables.jobs m.tables.jobs) (hk : Concluded j outcome k)
    (hsaved : v.saved = v.tables) (hnumbers : v.numbers = m.numbers)
    (hjobs : v.tables.jobs = m.tables.jobs.map (overwrite k)) : Settles j w outcome v := by
  have hids : v.tables.jobs.map Job.id = m.tables.jobs.map Job.id := by
    rw [hjobs]
    exact ids_map fun r _ => id_overwrite k r
  have queued := queued_committed hm hnumbers hids
  refine ⟨⟨queued.numbered, ?_, ?_⟩, hsaved, _, k, hrest, hm.numbered.distinct, hk, hjobs⟩
  · rw [hsaved]
    exact queued.saved
  · rw [hsaved]
    exact .refl _

section Ends
variable {m : World} (hw : w.Rested m)
include hw

theorem succeed_ends (hrest : AllRest w.tables.jobs m.tables.jobs) (hj : j ∈ m.tables.jobs)
    (output : Fields) :
    Ends (j.succeed output) m (fun outcome v => Settles j w outcome v)
      fun _ v => w.Rested v.rolledBack := by
  have undone : w.Rested m.rolledBack := hw.trans hw.queued.rolledBack
  unfold succeed
  refine .fetched (fun _ => undone) fun done hdone hid => ?_
  obtain rfl : done = j := hw.queued.numbered.eq_of_id hdone hj hid
  refine .step (a := m.clock.wall) (t := m) rfl ?_
  refine (store_ends _ m).bind (fun _ _ h => h.1 ▸ undone) ?_
  rintro - v - rfl
  refine .step (a := ()) rfl (.step (a := ()) rfl (.pure ?_))
  exact .of_concluded hw.queued hrest (.complete output m.clock.wall) rfl rfl rfl

theorem giveUp_ends (hrest : AllRest w.tables.jobs m.saved.jobs) (hj : j ∈ m.saved.jobs)
    (cause : Failure) :
    Ends (j.giveUp cause) m (fun outcome v => Settles j w outcome v)
      fun _ v => w.Rested v.rolledBack := by
  have undone : w.Rested m.rolledBack := hw.trans hw.queued.rolledBack
  unfold giveUp
  refine .step (a := ()) (t := m.rolledBack) rfl ?_
  refine (recordFailure_ends undone.queued hj cause).orFailure ?_ ?_
  · rintro outcome v ⟨k, hk, rfl⟩
    refine .step (a := ()) rfl (.pure ?_)
    exact .of_concluded undone.queued hrest hk rfl rfl rfl
  · rintro cause v rfl
    refine .step (a := ()) rfl (.throw ?_)
    exact undone.trans (jobsRest_of_tables rfl rfl rfl undone.queued)

end Ends

/-- Whatever the handler does, the attempt ends in one of the three ways, or nothing is written down
and the job goes on running. -/
theorem conclude_ends (hw : w.Queued) (heven : w.saved = w.tables) (hj : j ∈ w.tables.jobs)
    (hrunning : j.status = .running) {handler : Flow Fields} (hhandler : Resting handler) :
    Ends (j.conclude handler) w (fun outcome v => Settles j w outcome v)
      fun _ v => w.Rested v.rolledBack := by
  have hnot : j.status ≠ .pending := by rw [hrunning]; exact nofun
  have begun (c : Option String) : w.Rested (w.under c) := jobsRest_of_tables rfl rfl rfl hw
  have rested {u : World} (h : w.Rested u) : AllRest w.tables.jobs u.saved.jobs := by
    rw [← heven]
    exact h.rested
  unfold conclude
  refine .step (a := w.ambient) (t := w) rfl ?_
  refine Ends.correlated (?_ : Ends _ _ (fun outcome v => Settles j w outcome v)
    fun _ v => w.Rested v.rolledBack) ?_ ?_
  · refine (hhandler _).orFailure (fun output m hm => ?_) fun cause m hm => ?_
    · have hmid := (begun _).trans (hm (begun _).queued)
      have hrest := (rested hmid).trans hmid.queued.rested
      exact succeed_ends hmid hrest (hrest.mem_of_status hj hnot) output
    · have hmid := (begun _).trans (hm (begun _).queued)
      exact giveUp_ends hmid (rested hmid) ((rested hmid).mem_of_status hj hnot) cause
  · exact fun _ v c h => ⟨⟨h.queued.numbered, h.queued.saved, h.queued.rested⟩, h.saved, h.jobs⟩
  · exact fun _ v c h => h.trans (jobsRest_of_tables rfl rfl rfl h.queued)

end Job

end RecordFlow
