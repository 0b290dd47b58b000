import RecordFlow.Proofs.Job.Settling
import RecordFlow.Proofs.Session.Timekeeping

/-! # What a sweep accounts for

A sweep lists the jobs that are due and then visits them one after the other. Handlers may meanwhile
schedule jobs and cancel those that are pending, and a job that failed may wait again. A job that is
visited is run if it is still pending. That it is not can only be due to a job that was visited before
and cancelled it, so that what the sweep counts follows from the visits.
-/
namespace RecordFlow
open RecordFlow.Flow Calendar

def World.JobsNumbered (w : World) : Prop :=
  Numbered .job (w.nextNumber .job) (w.tables.jobs.map Job.id)

/-- Jobs have identifiers of their own after any session that began with nothing stored. -/
theorem World.afterAll_jobsNumbered {w : World} (hw : w.IsNew) (session : List Command) :
    (w.afterAll session).JobsNumbered := by
  have paced : World.Paced (fun _ => True) w (w.afterAll session) :=
    hw.timely.afterAll session fun _ _ => trivial
  exact paced.timely.given.jobs

namespace Job

/-- A job that a sweep came to: how its attempt ended, if it was run, and the worlds before and
after. -/
structure Visit where
  job : Uuid
  outcome : Option JobOutcome
  before : World
  after : World

def Waits (id : Uuid) (w : World) : Prop := ∃ j ∈ w.tables.jobs, j.id = id ∧ j.status = .pending

namespace Visit

def ran? (t : Visit) : Option Uuid := t.outcome.map fun _ => t.job

/-- The job was run and meanwhile another one was cancelled. -/
def Cancels (t : Visit) (id : Uuid) : Prop :=
  t.outcome.isSome = true ∧ Waits id t.before
    ∧ ∃ k ∈ t.after.tables.jobs, k.id = id ∧ k.status = .cancelled

end Visit

variable {handler : Job → Flow Fields} {worker : Option String} {id : Uuid} {ids : List Uuid}
variable {w v u : World} {j k : Job} {jobs : List Job} {t : Visit} {ts : List Visit}

def visit (handler : Job → Flow Fields) (worker : Option String) (id : Uuid) : Flow Visit := do
  let before ← get
  if ← claimPending id worker then
    let j ← fetch Job id
    let outcome ← j.conclude (handler j)
    return ⟨id, some outcome, before, ← get⟩
  return ⟨id, none, before, ← get⟩

def visitEach (handler : Job → Flow Fields) (worker : Option String) : List Uuid → Flow (List Visit)
  | [] => return []
  | id :: rest => return (← visit handler worker id) :: (← visitEach handler worker rest)

def tally (s : Sweep) (t : Visit) : Sweep :=
  match t.outcome with
  | some outcome => s.add t.job outcome
  | none => s.skip

def sweep (handler : Job → Flow Fields) (cutoff : Instant) (limit : Option Int)
    (worker : Option String) : Flow (Sweep × List Visit) := do
  let visits ← visitEach handler worker (← dueNow cutoff limit)
  return (visits.foldl tally .start, visits)

/-- What comes after a visit in a sweep only sees what it counts. -/
theorem visit_tally (worker : Option String) (id : Uuid) (s : Sweep) {α : Type}
    (next : Sweep → Flow α) : (do
      if ← claimPending id worker then
        let outcome ← runClaimed id
        next (s.add id outcome)
      else next s.skip) = (do next (tally s (← visit handle worker id))) := by
  funext w
  have hget : (get : Flow World) w = .ok w w := rfl
  unfold visit
  simp only [bind_assoc]
  rw [bind_ok hget]
  cases hclaim : claimPending id worker w with
  | error e v => rw [bind_error hclaim, bind_error hclaim]
  | ok won v =>
    rw [bind_ok hclaim, bind_ok hclaim]
    cases won with
    | false => rfl
    | true =>
      simp only [if_true, runClaimed_eq, bind_assoc]
      cases hfetch : fetch Job id v with
      | error e u => rw [bind_error hfetch, bind_error hfetch]
      | ok j u =>
        rw [bind_ok hfetch, bind_ok hfetch]
        cases hconclude : j.conclude j.handle u with
        | error e x => rw [bind_error hconclude, bind_error hconclude]
        | ok outcome x =>
          rw [bind_ok hconclude, bind_ok hconclude]
          rfl

theorem runEach_eq (worker : Option String) (ids : List Uuid) (s : Sweep) :
    runEach worker ids s = (do return (← visitEach handle worker ids).foldl tally s) := by
  induction ids generalizing s with
  | nil => rfl
  | cons id rest ih =>
    unfold runEach visitEach
    simp only [ih]
    rw [visit_tally worker id s fun s => do return (← visitEach handle worker rest).foldl tally s]
    simp only [bind_assoc, pure_bind, List.foldl_cons]

/-- The sweep that is carried out is the one with the handlers that there are. -/
theorem process_eq_sweep (cutoff : Instant) (limit : Option Int) (worker : Option String) :
    process cutoff limit worker = (do return (← sweep handle cutoff limit worker).1) := by
  rw [process_eq, sweep]
  simp only [runEach_eq, bind_assoc, pure_bind]

/-! ## What is counted -/

theorem ran_sublist (ts : List Visit) : (ts.filterMap Visit.ran?).Sublist (ts.map Visit.job) := by
  induction ts with
  | nil => exact .slnil
  | cons t rest ih =>
    rw [List.filterMap_cons, List.map_cons]
    cases h : t.outcome with
    | none =>
      simp only [Visit.ran?, h, Option.map_none]
      exact ih.cons _
    | some outcome =>
      simp only [Visit.ran?, h, Option.map_some]
      exact ih.cons_cons _

/-- The jobs that were run are listed; each of them ended in one of three ways, and each of the others
was skipped. -/
structure Balances (s : Sweep) (visits : List Visit) : Prop where
  jobs : s.jobs = visits.filterMap Visit.ran?
  listed : s.claimed = s.jobs.length
  claimed : s.claimed = s.completed + s.failed + s.rescheduled
  total : s.claimed + s.skipped = visits.length

theorem Balances.tally {s : Sweep} (h : Balances s ts) (t : Visit) :
    Balances (tally s t) (ts ++ [t]) := by
  obtain ⟨hjobs, hlisted, hclaimed, htotal⟩ := h
  unfold Job.tally
  cases ho : t.outcome with
  | none =>
    refine ⟨?_, hlisted, hclaimed, ?_⟩
    · simp [Sweep.skip, hjobs, Visit.ran?, ho]
    · simp only [Sweep.skip, List.length_append, List.length_singleton]
      omega
  | some outcome =>
    have hran : (ts ++ [t]).filterMap Visit.ran? = s.jobs ++ [t.job] := by
      simp [hjobs, Visit.ran?, ho]
    cases outcome with
    | completed | rescheduled | failed =>
      refine ⟨hran.symm, ?_, ?_, ?_⟩
      · simp [Sweep.add, hlisted]
      · simp only [Sweep.add]
        omega
      · simp only [Sweep.add, List.length_append, List.length_singleton]
        omega

theorem Balances.foldl {s : Sweep} (h : Balances s ts) (us : List Visit) :
    Balances (us.foldl Job.tally s) (ts ++ us) := by
  induction us generalizing s ts with
  | nil => simpa using h
  | cons u us ih =>
    rw [List.append_cons]
    exact ih (h.tally u)

/-! ## One visit -/

inductive Visited (id : Uuid) (w v : World) : Option JobOutcome → Prop
  | skipped (hmissed : ∀ j ∈ w.tables.jobs, j.id = id → j.status ≠ .pending)
    (hjobs : v.tables.jobs = w.tables.jobs) : Visited id w v none
  | ran {j k : Job} {claimant : String} {t : Instant} {jobs : List Job} {outcome : JobOutcome}
    (hj : j ∈ w.tables.jobs) (hid : j.id = id) (hpending : j.status = .pending)
    (hrest : AllRest (w.tables.jobs.map (overwrite (j.claim claimant t))) jobs)
    (hended : Concluded (j.claim claimant t) outcome k)
    (hjobs : v.tables.jobs = jobs.map (overwrite k)) : Visited id w v (some outcome)

theorem visit_yields (hhandler : ∀ j, Resting (handler j)) (hw : w.JobsNumbered)
    (worker : Option String) (id : Uuid) :
    Yields (visit handler worker id) w fun t v => t.job = id ∧ t.before = w ∧ t.after = v
      ∧ v.JobsNumbered ∧ Visited id w v t.outcome := by
  have hids : (w.tables.jobs.map Job.id).Nodup := hw.distinct
  have claims := (claimPending_ends hids id worker).and (claimPending_misses hids id worker)
  have even {m : World} (hsaved : m.saved = m.tables) (hnumbers : m.numbers = w.numbers)
      (hids : m.tables.jobs.map Job.id = w.tables.jobs.map Job.id) : m.Queued := by
    have numbered : m.JobsNumbered := by
      rw [World.JobsNumbered, hids, World.nextNumber_congr hnumbers]
      exact hw
    refine ⟨numbered, ?_, ?_⟩
    · rw [hsaved]
      exact numbered
    · rw [hsaved]
      exact .refl _
  unfold visit
  refine .step (a := w) (t := w) rfl (claims.yields.bind ?_)
  rintro won m ⟨⟨hsaved, hend⟩, hmissed⟩
  rcases hend with ⟨rfl, j, claimant, t, hid, replaced⟩ | ⟨rfl, hjobs, hnumbers⟩
  · have hsame : m.tables.jobs.map Job.id = w.tables.jobs.map Job.id := by
      rw [replaced.jobs]
      exact ids_map fun r _ => id_overwrite _ r
    have queued := even hsaved replaced.numbers hsame
    have claimed : j.claim claimant t ∈ m.tables.jobs := by
      rw [replaced.jobs]
      exact mem_overwrite replaced.mem rfl
    subst hid
    refine .step (fetch_eq (j := j.claim claimant t) queued claimed) ?_
    refine (conclude_ends queued hsaved claimed rfl (hhandler _)).yields.bind ?_
    rintro outcome v ⟨hqueued, -, jobs, k, hrest, -, hended, hjobs⟩
    rw [replaced.jobs] at hrest
    refine .step (a := v) (t := v) rfl (.pure ⟨rfl, rfl, rfl, hqueued.numbered, ?_⟩)
    exact .ran replaced.mem rfl replaced.pending hrest hended hjobs
  · have queued := even hsaved hnumbers (congrArg (List.map Job.id) hjobs)
    refine .step (a := m) (t := m) rfl (.pure ⟨rfl, rfl, rfl, queued.numbered, ?_⟩)
    exact .skipped (hmissed rfl) hjobs

def Known (id : Uuid) (w : World) : Prop := ∃ j ∈ w.tables.jobs, j.id = id

namespace Visited
variable {outcome : Option JobOutcome} {other : Uuid}

/-- A job is skipped exactly if it does not wait when its turn comes. -/
theorem skipped_iff (h : Visited id w v outcome) : outcome = none ↔ ¬ Waits id w := by
  cases h with
  | skipped hmissed =>
    simp only [true_iff]
    rintro ⟨j, hj, hid, hpending⟩
    exact hmissed j hj hid hpending
  | ran hj hid hpending =>
    simp only [reduceCtorEq, false_iff, not_not]
    exact ⟨_, hj, hid, hpending⟩

theorem kept (h : Visited id w v outcome) (hj : j ∈ w.tables.jobs) (hne : j.id ≠ id) :
    ∃ k ∈ v.tables.jobs, j.Rests k := by
  cases h with
  | skipped _ hjobs => exact ⟨j, hjobs ▸ hj, .stay j⟩
  | @ran i c claimant t jobs outcome hi hid hpending hrest hended hjobs =>
    have hstands : j ∈ w.tables.jobs.map (overwrite (i.claim claimant t)) := by
      refine List.mem_map.mpr ⟨j, hj, overwrite_of_ne ?_⟩
      exact fun h => hne (h.trans hid)
    obtain ⟨k, hk, hjk⟩ := hrest.kept j hstands
    refine ⟨k, ?_, hjk⟩
    rw [hjobs]
    refine List.mem_map.mpr ⟨k, hk, overwrite_of_ne fun h => hne ?_⟩
    calc
      j.id = k.id := hjk.id.symm
      _ = c.id := h
      _ = i.id := hended.id
      _ = id := hid

theorem origin (h : Visited id w v outcome) (hk : k ∈ v.tables.jobs) (hne : k.id ≠ id) :
    (∃ j ∈ w.tables.jobs, j.Rests k) ∨ k.Untried ∧ ¬ Known k.id w := by
  cases h with
  | skipped _ hjobs => exact .inl ⟨k, hjobs ▸ hk, .stay k⟩
  | @ran i c claimant t jobs outcome hi hid hpending hrest hended hjobs =>
    rw [hjobs] at hk
    obtain ⟨q, hq, rfl⟩ := List.mem_map.mp hk
    have hsame : (overwrite c q).id = q.id := id_overwrite c q
    have hq' : q.id ≠ c.id := fun h => hne (hsame.trans (h.trans (hended.id.trans hid)))
    rw [overwrite_of_ne hq'] at hne ⊢
    rcases hrest.origin q hq with ⟨p, hp, hpq⟩ | ⟨huntried, hnew⟩
    · obtain ⟨r, hr, rfl⟩ := List.mem_map.mp hp
      have hr' : r.id ≠ (i.claim claimant t).id := by
        intro h
        have hfrom : (overwrite (i.claim claimant t) r).id = r.id := id_overwrite _ r
        exact hne (hpq.id.trans (hfrom.trans (h.trans hid)))
      rw [overwrite_of_ne hr'] at hpq
      exact .inl ⟨r, hr, hpq⟩
    · refine .inr ⟨huntried, ?_⟩
      rintro ⟨r, hr, hid⟩
      exact hnew _ (List.mem_map_of_mem hr) ((id_overwrite _ r).trans hid)

/-- The job that is visited is tried once more if it is run. -/
theorem own (h : Visited id w v outcome) (hw : w.JobsNumbered) (hj : j ∈ w.tables.jobs)
    (hid : j.id = id) : ∃ k ∈ v.tables.jobs, k.id = id
      ∧ k.attempt = j.attempt + if outcome.isSome = true then 1 else 0 := by
  cases h with
  | skipped _ hjobs => exact ⟨j, hjobs ▸ hj, hid, by simp⟩
  | @ran i c claimant t jobs outcome hi hid' hpending hrest hended hjobs =>
    obtain rfl : i = j := hw.eq_of_id hi hj (hid'.trans hid.symm)
    have hclaimed : i.claim claimant t ∈ w.tables.jobs.map (overwrite (i.claim claimant t)) :=
      mem_overwrite hi rfl
    have hnot : (i.claim claimant t).status ≠ .pending := nofun
    refine ⟨c, ?_, hended.id.trans hid, ?_⟩
    · rw [hjobs]
      exact mem_overwrite (hrest.mem_of_status hclaimed hnot) hended.id.symm
    · have hattempt : c.attempt = i.attempt + 1 := by cases hended <;> rfl
      simpa using hattempt

/-- Another job ceases to wait only where it is cancelled. -/
theorem waits_iff (h : Visited id w v outcome) (hv : v.JobsNumbered) (hne : other ≠ id)
    (hother : Known other w) :
    Waits other v ↔ Waits other w ∧ ¬ Visit.Cancels ⟨id, outcome, w, v⟩ other := by
  constructor
  · rintro ⟨k, hk, rfl, hpending⟩
    have hwaits : Waits k.id w := by
      rcases h.origin hk hne with ⟨j, hj, hjk⟩ | ⟨-, hnew⟩
      · cases hjk with
        | stay => exact ⟨k, hj, rfl, hpending⟩
        | cancel => cases hpending
      · exact absurd hother hnew
    refine ⟨hwaits, ?_⟩
    rintro ⟨-, -, c, hc, hid, hcancelled⟩
    rw [hv.eq_of_id hc hk hid, hpending] at hcancelled
    cases hcancelled
  · rintro ⟨⟨j, hj, rfl, hpending⟩, hkeeps⟩
    obtain ⟨k, hk, hjk⟩ := h.kept hj hne
    cases hjk with
    | stay => exact ⟨j, hk, rfl, hpending⟩
    | cancel _ t =>
      refine absurd ⟨?_, ⟨j, hj, rfl, hpending⟩, j.cancel t, hk, rfl, rfl⟩ hkeeps
      -- Where the job was skipped nothing happened to any other.
      cases h with
      | skipped _ hjobs =>
        have hsame : j.cancel t = j := hv.eq_of_id hk (hjobs ▸ hj) rfl
        rw [← hsame] at hpending
        cases hpending
      | ran => rfl

end Visited

/-! ## All visits -/

/-- Jobs were tried once more for each time they are listed. Those that are new were not tried. -/
structure Tried (ids : List Uuid) (w v : World) : Prop where
  kept : ∀ j ∈ w.tables.jobs, ∃ k ∈ v.tables.jobs, k.id = j.id
    ∧ k.attempt = j.attempt + ids.count j.id
  new : ∀ k ∈ v.tables.jobs, ¬ Known k.id w → k.attempt = 0

namespace Tried

theorem nil (w : World) : Tried [] w w where
  kept j hj := ⟨j, hj, rfl, by simp⟩
  new k hk hnew := absurd ⟨k, hk, rfl⟩ hnew

theorem known_of (h : Tried ids w v) (hid : Known id w) : Known id v := by
  obtain ⟨j, hj, rfl⟩ := hid
  obtain ⟨k, hk, hkj, -⟩ := h.kept j hj
  exact ⟨k, hk, hkj⟩

theorem append {ids' : List Uuid} (h : Tried ids w v) (h' : Tried ids' v u)
    (hu : u.JobsNumbered) (hids' : ∀ id ∈ ids', Known id w) : Tried (ids ++ ids') w u where
  kept j hj := by
    obtain ⟨k, hk, hkj, hattempt⟩ := h.kept j hj
    obtain ⟨l, hl, hlk, hattempt'⟩ := h'.kept k hk
    refine ⟨l, hl, hlk.trans hkj, ?_⟩
    rw [hattempt', hattempt, hkj, List.count_append]
    omega
  new k hk hnew := by
    by_cases hmid : Known k.id v
    · obtain ⟨m, hm, hid⟩ := hmid
      obtain ⟨l, hl, hlm, hattempt⟩ := h'.kept m hm
      have hunlisted : m.id ∉ ids' := fun hmem => hnew (hid ▸ hids' _ hmem)
      rw [hu.eq_of_id hk hl (hid.symm.trans hlm.symm), hattempt, h.new m hm (hid ▸ hnew),
        List.count_eq_zero.mpr hunlisted]
      rfl
    · exact h'.new k hk hmid

end Tried

theorem Visited.tried {outcome : Option JobOutcome} (h : Visited id w v outcome)
    (hw : w.JobsNumbered) (hid : Known id w) :
    Tried ((outcome.map fun _ => id).toList) w v where
  kept j hj := by
    by_cases hj' : j.id = id
    · obtain ⟨k, hk, hkid, hattempt⟩ := h.own hw hj hj'
      refine ⟨k, hk, hkid.trans hj'.symm, ?_⟩
      rw [hattempt, hj']
      cases outcome <;> simp
    · obtain ⟨k, hk, hjk⟩ := h.kept hj hj'
      refine ⟨k, hk, hjk.id, ?_⟩
      rw [hjk.attempt]
      cases outcome <;> simp [Ne.symm hj']
  new k hk hnew := by
    have hne : k.id ≠ id := fun h => hnew (h ▸ hid)
    rcases h.origin hk hne with ⟨j, hj, hjk⟩ | ⟨huntried, -⟩
    · exact absurd ⟨j, hj, hjk.id.symm⟩ hnew
    · exact huntried.attempt

/-- A job that is visited is skipped exactly if it did not wait in the first place, or one that was
visited before it cancelled it. -/
def SkipsCancelled (w : World) (visits : List Visit) : Prop :=
  ∀ earlier t later, visits = earlier ++ t :: later →
    (t.outcome = none ↔ ¬ Waits t.job w ∨ ∃ s ∈ earlier, s.Cancels t.job)

theorem visitEach_yields (hhandler : ∀ j, Resting (handler j)) (hw : w.JobsNumbered)
    (worker : Option String) {ids : List Uuid} (hids : ids.Nodup) (hlisted : ∀ id ∈ ids, Known id w) :
    Yields (visitEach handler worker ids) w fun visits v => visits.map Visit.job = ids
      ∧ v.JobsNumbered ∧ Tried (visits.filterMap Visit.ran?) w v ∧ SkipsCancelled w visits := by
  induction ids generalizing w with
  | nil => exact .pure ⟨rfl, hw, .nil w, fun earlier t later h => by simp at h⟩
  | cons id rest ih =>
    obtain ⟨hid, hrest⟩ := List.nodup_cons.mp hids
    have hthere : Known id w := hlisted id List.mem_cons_self
    have hothers : ∀ other ∈ rest, Known other w := fun other h =>
      hlisted other (List.mem_cons_of_mem _ h)
    unfold visitEach
    refine (visit_yields hhandler hw worker id).bind ?_
    rintro ⟨id, outcome, _, _⟩ v ⟨rfl, rfl, rfl, hv, hvisited⟩
    have htried := hvisited.tried hw hthere
    refine (ih hv hrest fun other h => htried.known_of (hothers other h)).bind ?_
    rintro visits u ⟨hjobs, hu, htried', hskips⟩
    have hvisits : ∀ t ∈ visits, t.job ∈ rest := fun t ht => hjobs ▸ List.mem_map_of_mem ht
    refine .pure ⟨congrArg (_ :: ·) hjobs, hu, ?_, ?_⟩
    · have hboth := htried.append htried' hu fun other h =>
        hothers other (hjobs ▸ (ran_sublist visits).subset h)
      cases outcome with
      | none => exact hboth
      | some outcome => exact hboth
    · intro earlier t later h
      cases earlier with
      | nil =>
        obtain ⟨rfl, rfl⟩ := List.cons.inj h
        simpa using hvisited.skipped_iff
      | cons first earlier =>
        obtain ⟨rfl, rfl⟩ := List.cons.inj h
        have ht : t.job ∈ rest := hvisits t (by simp)
        have hne : t.job ≠ id := fun h => hid (h ▸ ht)
        rw [hskips earlier t later rfl, hvisited.waits_iff hv hne (hothers _ ht)]
        simp only [not_and_or, not_not, or_assoc, List.mem_cons, exists_eq_or_imp]

/-! ## A whole sweep -/

/-- The order in which a sweep takes jobs: the first due first, and of those the oldest. -/
def GoesBefore (a b : Job) : Prop := a.runAt < b.runAt ∨ a.runAt = b.runAt ∧ a.createdAt ≤ b.createdAt

theorem goesBefore_iff (a b : Job) : GoesBefore a b ↔ a.runAt.micros < b.runAt.micros
    ∨ a.runAt.micros = b.runAt.micros ∧ a.createdAt.micros ≤ b.createdAt.micros := by
  have hsame : a.runAt = b.runAt ↔ a.runAt.micros = b.runAt.micros :=
    ⟨congrArg Instant.micros, fun h => congrArg Instant.mk h⟩
  unfold GoesBefore
  rw [hsame]
  rfl

instance : Std.Total GoesBefore where
  total a b := by
    rw [goesBefore_iff, goesBefore_iff]
    omega

instance : IsTrans Job GoesBefore where
  trans a b c := by
    rw [goesBefore_iff, goesBefore_iff, goesBefore_iff]
    omega

instance : DecidableRel GoesBefore := fun a b =>
  inferInstanceAs (Decidable (a.runAt < b.runAt ∨ a.runAt = b.runAt ∧ a.createdAt ≤ b.createdAt))

/-- Of the jobs that are due as many come first as a sweep may take. -/
def ComeFirst (cutoff : Instant) (limit : Int) (w : World) (ids : List Uuid) : Prop :=
  ∃ due : List Job, due.Perm (w.tables.jobs.filter (·.isDue cutoff)) ∧ due.Pairwise GoesBefore
    ∧ ids = (due.take limit.toNat).map Job.id

theorem ComeFirst.nodup {cutoff : Instant} {limit : Int} (h : ComeFirst cutoff limit w ids)
    (hw : w.JobsNumbered) : ids.Nodup := by
  obtain ⟨due, hdue, -, rfl⟩ := h
  exact (listed_due hw.distinct (List.take_sublist _ _) hdue).1

theorem ComeFirst.waits {cutoff : Instant} {limit : Int} (h : ComeFirst cutoff limit w ids)
    (hw : w.JobsNumbered) (hid : id ∈ ids) : Waits id w := by
  obtain ⟨due, hdue, -, rfl⟩ := h
  obtain ⟨j, hj, hid, hpending, -⟩ := (listed_due hw.distinct (List.take_sublist _ _) hdue).2 id hid
  exact ⟨j, hj, hid, hpending⟩

def sweepLimit (limit : Option Int) (w : World) : Int := givenOr limit w.settings.sweepBatch

theorem dueNow_yields (cutoff : Instant) {limit : Option Int} (hlimit : 0 < sweepLimit limit w) :
    Yields (dueNow cutoff limit) w fun ids v =>
      v = w ∧ ComeFirst cutoff (sweepLimit limit w) w ids := by
  unfold dueNow dueIds
  refine .step (a := w.settings) (t := w) rfl (.step (a := w.tables.jobs) (t := w) rfl ?_)
  refine (Record.limited_ends _ _ w).yields.bind ?_
  rintro rows v ⟨rfl, rfl⟩
  have hnot : ¬ givenOr limit v.settings.sweepBatch < 0 := not_lt.mpr hlimit.le
  rw [if_neg hnot]
  refine .pure ⟨rfl, _, sorted_perm _ _, pairwise_sorted (r := GoesBefore) (fun a b => ?_) _, rfl⟩
  simp [GoesBefore]

/-- A sweep comes to the jobs that were due first when it began, in order. Those it lists it ran, each
of them once, and skipped the others. A job is skipped exactly if one that it ran before cancelled it.
No job was tried but those that it lists, also no new one, and these once. -/
structure Accounts (cutoff : Instant) (limit : Int) (w v : World) (s : Sweep) (visits : List Visit) :
    Prop where
  considered : ComeFirst cutoff limit w (visits.map Visit.job)
  inOrder : s.jobs.Sublist (visits.map Visit.job)
  once : s.jobs.Nodup
  balances : Balances s visits
  skips : ∀ earlier t later, visits = earlier ++ t :: later →
    (t.outcome = none ↔ ∃ s ∈ earlier, s.Cancels t.job)
  tried : Tried s.jobs w v

theorem sweep_accounts (hhandler : ∀ j, Resting (handler j)) (hw : w.JobsNumbered) (cutoff : Instant)
    {limit : Option Int} (hlimit : 0 < sweepLimit limit w) (worker : Option String) :
    Yields (sweep handler cutoff limit worker) w fun out v =>
      Accounts cutoff (sweepLimit limit w) w v out.1 out.2 := by
  unfold sweep
  refine (dueNow_yields cutoff hlimit).bind ?_
  rintro ids w ⟨rfl, hfirst⟩
  have hdistinct : ids.Nodup := hfirst.nodup hw
  have hwaits : ∀ id ∈ ids, Waits id w := fun id hid => hfirst.waits hw hid
  have hlisted : ∀ id ∈ ids, Known id w := fun id hid =>
    (hwaits id hid).imp fun j hj => ⟨hj.1, hj.2.1⟩
  refine (visitEach_yields hhandler hw worker hdistinct hlisted).bind ?_
  rintro visits v ⟨hjobs, -, htried, hskips⟩
  have hbalances : Balances (visits.foldl tally .start) ([] ++ visits) :=
    Balances.foldl ⟨rfl, rfl, rfl, rfl⟩ visits
  have hinOrder : (visits.foldl tally .start).jobs.Sublist (visits.map Visit.job) := by
    rw [hbalances.jobs]
    exact ran_sublist visits
  refine .pure ⟨hjobs ▸ hfirst, hinOrder, ?_, hbalances, ?_, ?_⟩
  · rw [hjobs] at hinOrder
    exact hdistinct.sublist hinOrder
  · intro earlier t later h
    have ht : t.job ∈ ids := by
      rw [← hjobs, show visits = earlier ++ t :: later from h]
      simp
    simpa [hwaits t.job ht] using hskips earlier t later h
  · rw [hbalances.jobs]
    exact htried

/-- Whatever state a sweep begins in, and whatever jobs its handlers schedule or cancel meanwhile, and
whichever of them fail: if the sweep gives an account, the account is right. -/
theorem process_accounts (hw : w.JobsNumbered) (cutoff : Instant) {limit : Option Int}
    (hlimit : 0 < sweepLimit limit w) (worker : Option String) :
    (∀ handler : Job → Flow Fields, (∀ j, Resting (handler j)) →
      Yields (sweep handler cutoff limit worker) w fun out v =>
        Accounts cutoff (sweepLimit limit w) w v out.1 out.2)
    ∧ Yields (process cutoff limit worker) w fun s v => ∃ visits,
      sweep handle cutoff limit worker w = .ok (s, visits) v
      ∧ Accounts cutoff (sweepLimit limit w) w v s visits := by
  refine ⟨fun handler hhandler => sweep_accounts hhandler hw cutoff hlimit worker, ?_⟩
  have accounts := sweep_accounts (fun j => upholds_handle j) hw cutoff hlimit worker
  rw [process_eq_sweep]
  cases h : sweep handle cutoff limit worker w with
  | error e v => exact Ends.of_error (bind_error h _) trivial
  | ok out v =>
    have account := Ends.ok_of accounts h
    exact Ends.of_ok (bind_ok h _) ⟨out.2, rfl, account⟩

def dueJob (n : Nat) : Job where
  id := TableName.job.rowId n
  kind := "workflow_retry"
  status := .pending
  payload := .obj []
  runAt := ⟨0⟩
  attempt := 0
  maxAttempts := 3
  record := none
  key := none
  claimedBy := none
  claimedAt := none
  lastError := none
  result := .null
  correlation := none
  finishedAt := none
  createdAt := ⟨n⟩

@[irreducible]
def dueWorld : World :=
  { World.initial ⟨⟨0⟩, 0⟩ .standard .complete [] with
    tables := { Tables.empty with
      jobs := [dueJob 2, dueJob 3, { dueJob 1 with createdAt := ⟨0⟩ }] }
    numbers := [(.job, 3)] }

theorem dueWorld_numbered : dueWorld.JobsNumbered where
  distinct := by decide +kernel
  given id hid := by
    have hthree : id = TableName.job.rowId 2 ∨ id = TableName.job.rowId 3
        ∨ id = TableName.job.rowId 1 := by simpa [dueWorld, dueJob] using hid
    rcases hthree with h | h | h
    · exact ⟨2, by decide +kernel, h⟩
    · exact ⟨3, by decide +kernel, h⟩
    · exact ⟨1, by decide +kernel, h⟩

def busy (j : Job) : Flow Fields := do
  if j.id ≠ TableName.job.rowId 1 then throw (.job (.noHandler j.kind))
  let _ ← cancelPending (TableName.job.rowId 3)
  let _ ← schedule ⟨"workflow_retry", .obj [], some ⟨0⟩, none, none, none⟩
  return []

theorem resting_busy (j : Job) : Resting (busy j) := by
  unfold busy
  refine .guarded (.bind (.of_keeps (Cancels.cancel _)) fun _ => ?_)
  exact .bind (.of_keeps (Schedules.schedule _)) fun _ => .pure _

theorem sweep_busy : passes (sweep busy ⟨5⟩ none none) dueWorld (fun out _ =>
    out.1 == ⟨2, 1, 0, 1, 1, [TableName.job.rowId 1, TableName.job.rowId 2]⟩) = true := by
  decide +kernel

theorem process_dueWorld : passes (process ⟨5⟩ none none) dueWorld (fun s _ =>
    s == ⟨3, 0, 0, 3, 0, [TableName.job.rowId 1, TableName.job.rowId 2, TableName.job.rowId 3]⟩)
      = true := by
  decide +kernel

/-- The job that was cancelled is skipped. With the handlers that there are all three are run. -/
theorem process_accounts_busy : dueWorld.JobsNumbered ∧ 0 < sweepLimit none dueWorld
    ∧ (∀ j, Resting (busy j))
    ∧ (∃ s visits v, sweep busy ⟨5⟩ none none dueWorld = .ok (s, visits) v
      ∧ s = ⟨2, 1, 0, 1, 1, [TableName.job.rowId 1, TableName.job.rowId 2]⟩
      ∧ Accounts ⟨5⟩ (sweepLimit none dueWorld) dueWorld v s visits)
    ∧ ∃ s visits v, process ⟨5⟩ none none dueWorld = .ok s v
      ∧ s = ⟨3, 0, 0, 3, 0, [TableName.job.rowId 1, TableName.job.rowId 2, TableName.job.rowId 3]⟩
      ∧ Accounts ⟨5⟩ (sweepLimit none dueWorld) dueWorld v s visits := by
  have hlimit : 0 < sweepLimit none dueWorld := by decide +kernel
  obtain ⟨any, real⟩ := process_accounts dueWorld_numbered ⟨5⟩ hlimit none
  refine ⟨dueWorld_numbered, hlimit, resting_busy, ?_, ?_⟩
  · obtain ⟨⟨s, visits⟩, v, h, hs⟩ := (Ends.of_passes sweep_busy).exists_ok
    have account := Ends.ok_of (any busy resting_busy) h
    simp only [beq_iff_eq] at hs
    exact ⟨s, visits, v, h, hs, account⟩
  · obtain ⟨s, v, h, hs⟩ := (Ends.of_passes process_dueWorld).exists_ok
    obtain ⟨visits, -, account⟩ := Ends.ok_of real h
    simp only [beq_iff_eq] at hs
    exact ⟨s, visits, v, h, hs, account⟩

end Job

end RecordFlow
