import Mathlib.Data.List.Perm.Subperm
import RecordFlow.Proofs.Job.Exclusive
import RecordFlow.Proofs.Session.Timekeeping

/-! # Pools of workers

Sweeps that are under way at once, cut into the parts that are saved at once: the list is read, a job
is claimed, its handler is called, and the attempt is brought to its end. Between these parts anything
else may be saved that does not claim a job, be it asked for by somebody else or be it an earlier part
of what a handler does.
-/
namespace RecordFlow
open RecordFlow.Flow Calendar
variable {ι : Type}

/-- The world that all workers share, where each of them stands, and what was done. -/
structure Pool (ι : Type) where
  world : World
  post : ι → Post
  log : List (Deed ι)

namespace Pool

def opened (w : World) : Pool ι := ⟨w, fun _ => .idle, []⟩

def desk (p : Pool ι) : Desk ι := ⟨p.world.tables.jobs, p.post, p.log⟩

/-- A part is saved if it succeeds and undone if it fails, and the pool goes on from its answer. -/
def carry {α : Type} (p : Pool ι) (part : Flow α) (next : Option α → Pool ι → Pool ι) : Pool ι :=
  match part p.world with
  | .ok a v => next (some a) { p with world := v.committed }
  | .error _ v => next none { p with world := v.rolledBack }

variable [DecidableEq ι]

def put (p : Pool ι) (i : ι) (post : Post) (news : Option (Deed ι)) : Pool ι :=
  { p with post := Function.update p.post i post, log := p.log ++ news.toList }

/-- A worker reads what is due. If it was at another sweep, it breaks that off. -/
def list (p : Pool ι) (i : ι) (cutoff : Instant) (limit : Option Int) (worker : Option String) :
    Pool ι :=
  p.carry (Job.dueNow cutoff limit) fun
    | some ids, q => q.put i (.sweeping ⟨cutoff, worker, ids⟩) (some (.listed i))
    | none, q => q.put i .idle none

def claim (p : Pool ι) (i : ι) : Pool ι :=
  match p.post i with
  | .sweeping ⟨cutoff, worker, id :: queue⟩ => p.carry (Job.claimPending id worker) fun
    | some true, q => q.put i (.claimed ⟨cutoff, worker, queue⟩ id) (some (.claimed i id))
    | some false, q => q.put i (.sweeping ⟨cutoff, worker, queue⟩) none
    | none, q => q.put i .idle none
  | _ => p

def call (p : Pool ι) (i : ι) : Pool ι :=
  match p.post i with
  | .claimed r id => p.carry (fetch Job id) fun
    | some j, q => q.put i (.running r j) (some (.called i j.id j.attempt))
    | none, q => q.put i .idle none
  | _ => p

def finish (p : Pool ι) (i : ι) (handler : Job → Flow Fields) : Pool ι :=
  match p.post i with
  | .running r j => p.carry (j.conclude (handler j)) fun
    | some outcome, q =>
      q.put i (.sweeping r) (if outcome = .rescheduled then some (.postponed i j.id) else none)
    | none, q => q.put i .idle none
  | _ => p

omit [DecidableEq ι] in
def cancel (p : Pool ι) (id : Uuid) : Pool ι :=
  p.carry (Job.cancelPending id) fun
    | some true, q => { q with log := q.log ++ [.cancelled id] }
    | _, q => q

end Pool

/-- What may happen next. A worker that lists anew breaks off the sweep that it was at. -/
inductive Move (ι : Type) where
  | list (i : ι) (cutoff : Instant) (limit : Option Int) (worker : Option String)
  | claim (i : ι)
  | call (i : ι)
  | finish (i : ι) (handler : Job → Flow Fields) (h : ∀ j, Resting (handler j))
  | cancel (job : Uuid)
  | aside (part : Flow Unit) (h : Resting part)

/-- Whatever is asked for, jobs rest unless some are claimed. -/
theorem Command.resting (c : Command) (h : c.sweeps = false) : Resting c.run := by
  have never (hsweeps : c.sweeps = true) : False := by
    rw [h] at hsweeps
    cases hsweeps
  exact c.upholds_run (fun id actor => Incidental.upholds (incidental_pause id actor))
    (fun id actor => Incidental.upholds (incidental_resume id actor)) (fun hs => (never hs).elim)
    (fun id _ => Incidental.upholds (Cancels.cancel id)) fun hs => (never hs).elim

namespace Move

def ask (c : Command) (h : c.sweeps = false) : Move ι := aside c.run (c.resting h)

def schedule (d : Job.Draft) : Move ι := ask (.errand (.schedule d)) rfl

end Move

section Moves
variable [DecidableEq ι]

/-- The pool after a move. A failure ends the sweep of the worker that it happens to, and nothing
happens if the move is not the next one of its worker. -/
def Move.after : Move ι → Pool ι → Pool ι
  | list i cutoff limit worker, p => p.list i cutoff limit worker
  | claim i, p => p.claim i
  | call i, p => p.call i
  | finish i handler _, p => p.finish i handler
  | cancel id, p => p.cancel id
  | aside part _, p => p.carry part fun _ q => q

def Pool.afterAll (p : Pool ι) (moves : List (Move ι)) : Pool ι :=
  moves.foldl (fun p m => m.after p) p

end Moves

/-! ## What a move does -/

namespace Pool

structure Even (p : Pool ι) : Prop where
  queued : p.world.Queued
  saved : p.world.saved = p.world.tables

variable [DecidableEq ι]

structure Goes (p q : Pool ι) : Prop where
  even : q.Even
  steps : Relation.ReflTransGen Desk.Step p.desk q.desk

variable {p q : Pool ι}

theorem Even.refl (hp : p.Even) : p.Goes p := ⟨hp, .refl⟩

theorem Goes.trans {o : Pool ι} (h : p.Goes q) (h' : q.Goes o) : p.Goes o :=
  ⟨h'.even, h.steps.trans h'.steps⟩

theorem Goes.single (h : p.Goes q) {o : Pool ι} (hworld : o.world = q.world)
    (hstep : Desk.Step q.desk o.desk) : p.Goes o :=
  ⟨⟨hworld ▸ h.even.queued, hworld ▸ h.even.saved⟩, h.steps.tail hstep⟩

theorem Even.rested (hp : p.Even) {v : World} (h : p.world.Rested v) :
    p.Goes { p with world := v.committed } ∧ p.Goes { p with world := v.rolledBack } := by
  have hrest : Job.AllRest p.world.tables.jobs v.saved.jobs := hp.saved ▸ h.rested
  have committed := h.queued.committed.queued
  have undone := h.queued.rolledBack.queued
  exact ⟨⟨⟨committed, rfl⟩, .single (.rest (hrest.trans h.queued.rested) h.queued.numbered.distinct)⟩,
    ⟨⟨undone, rfl⟩, .single (.rest hrest h.queued.saved.distinct)⟩⟩

theorem goes_carry {α : Type} {part : Flow α} {next : Option α → Pool ι → Pool ι}
    (h : Ends part p.world (fun a v => p.Goes (next (some a) { p with world := v.committed }))
      fun _ v => p.Goes (next none { p with world := v.rolledBack })) :
    p.Goes (p.carry part next) := by
  unfold carry
  cases hpart : part p.world with
  | ok a v => exact h.ok_of hpart
  | error e v => exact h.bad_of hpart

theorem Even.still (hp : p.Even) : p.Goes { p with world := p.world.committed }
    ∧ p.Goes { p with world := p.world.rolledBack } := hp.rested hp.queued.refl

theorem goes_list (hp : p.Even) (i : ι) (cutoff : Instant) (limit : Option Int)
    (worker : Option String) : p.Goes (p.list i cutoff limit worker) := by
  refine goes_carry ((Job.dueNow_ends hp.queued.numbered.distinct cutoff limit).mono ?_ ?_)
  · rintro ids v ⟨rfl, hdistinct, hdue⟩
    exact hp.still.1.single rfl (.list i worker hdistinct hdue)
  · rintro - v rfl
    exact hp.still.2.single rfl (.stop i)

theorem goes_claim (hp : p.Even) (i : ι) : p.Goes (p.claim i) := by
  unfold claim
  split
  · next cutoff worker id queue hpost =>
    have claims := Job.claimPending_ends hp.queued.numbered.distinct id worker
    refine goes_carry (claims.mono ?_ fun _ _ h => h.elim)
    rintro won v ⟨hsaved, ⟨rfl, j, claimant, t, rfl, replaced⟩ | ⟨rfl, hjobs, hnumbers⟩⟩
    · have kept : v.tables.jobs.map Job.id = p.world.tables.jobs.map Job.id := by
        rw [replaced.jobs]
        exact ids_map fun r _ => id_overwrite _ r
      refine ⟨⟨Job.queued_committed hp.queued replaced.numbers kept, rfl⟩, .single ?_⟩
      show Desk.Step p.desk ⟨v.tables.jobs, _, _⟩
      rw [replaced.jobs]
      exact .claim hpost replaced.mem replaced.pending claimant t
    · have kept := congrArg (List.map Job.id) hjobs
      refine ⟨⟨Job.queued_committed hp.queued hnumbers kept, rfl⟩, .single ?_⟩
      show Desk.Step p.desk ⟨v.tables.jobs, _, _⟩
      rw [hjobs]
      exact .skip hpost
  · exact hp.refl

theorem goes_call (hp : p.Even) (i : ι) : p.Goes (p.call i) := by
  unfold call
  split
  · next r id hpost =>
    refine goes_carry ((fetch_ends id p.world).mono ?_ ?_)
    · rintro j v ⟨rfl, hfound⟩
      obtain rfl : j.id = id := id_of_find? hfound
      exact hp.still.1.single rfl (.call hpost (List.mem_of_find?_eq_some hfound))
    · rintro - v ⟨rfl, -⟩
      exact hp.still.2.single rfl (.stop i)
  · exact hp.refl

theorem goes_finish (hp : p.Even) (hd : p.desk.Sound) (i : ι) {handler : Job → Flow Fields}
    (h : ∀ j, Resting (handler j)) : p.Goes (p.finish i handler) := by
  unfold finish
  split
  · next r j hpost =>
    obtain ⟨hj, hrunning, -⟩ := hd.held_at hpost
    have concludes := Job.conclude_ends hp.queued hp.saved hj hrunning (h j)
    refine goes_carry (concludes.mono ?_ ?_)
    · rintro outcome v ⟨queued, saved, jobs, k, hrest, hids, hk, hjobs⟩
      refine ⟨⟨queued.committed.queued, rfl⟩, .tail (.single (.rest hrest hids)) ?_⟩
      show Desk.Step _ ⟨v.tables.jobs, _, _⟩
      rw [hjobs]
      exact .conclude hpost hk
    · intro _ v hv
      exact (hp.rested hv).2.single rfl (.stop i)
  · exact hp.refl

theorem goes_cancel (hp : p.Even) (id : Uuid) : p.Goes (p.cancel id) := by
  have cancels := (Cancels.cancel (R := JobsRest) id p.world).and
    (Job.cancelPending_ends hp.queued.numbered.distinct id)
  refine goes_carry (cancels.mono (fun won v h => ?_) fun _ _ h => h.2.elim)
  have rested := (hp.rested (h.1 hp.queued)).1
  cases won with
  | false => exact rested
  | true =>
    obtain ⟨j, t, rfl, replaced⟩ := h.2 rfl
    have hmem : j.cancel t ∈ v.tables.jobs := by
      rw [replaced.jobs]
      exact mem_overwrite replaced.mem rfl
    exact rested.single rfl (.cancel (j := j.cancel t) hmem rfl)

end Pool

section Goes
variable [DecidableEq ι] {p : Pool ι}

/-- Every move is one that workers at the jobs may make. -/
theorem Move.goes (m : Move ι) (hp : p.Even) (hd : p.desk.Sound) : p.Goes (m.after p) := by
  cases m with
  | list i cutoff limit worker => exact Pool.goes_list hp i cutoff limit worker
  | claim i => exact Pool.goes_claim hp i
  | call i => exact Pool.goes_call hp i
  | finish i handler h => exact Pool.goes_finish hp hd i h
  | cancel id => exact Pool.goes_cancel hp id
  | aside part h =>
    show p.Goes (p.carry part fun _ q => q)
    refine Pool.goes_carry ((h p.world).mono (fun _ v hv => ?_) fun _ v hv => ?_)
    · exact (hp.rested (hv hp.queued)).1
    · exact (hp.rested (hv hp.queued)).2

theorem Pool.goes_afterAll (hp : p.Even) (hd : p.desk.Sound) (moves : List (Move ι)) :
    p.Goes (p.afterAll moves) := by
  induction moves generalizing p with
  | nil => exact hp.refl
  | cons m rest ih =>
    have head := m.goes hp hd
    exact head.trans (ih head.even (hd.steps head.steps))

end Goes

/-! ## Pools that begin in a new world -/

namespace Pool
variable {w : World}

theorem opened_even (hw : w.IsNew) : (opened w : Pool ι).Even := by
  obtain ⟨htables, hsaved⟩ := hw
  refine ⟨⟨?_, ?_, ?_⟩, hsaved.trans htables.symm⟩
  · show Numbered .job _ (w.tables.jobs.map Job.id)
    rw [htables]
    exact .nil
  · show Numbered .job _ (w.saved.jobs.map Job.id)
    rw [hsaved]
    exact .nil
  · show Job.AllRest w.saved.jobs w.tables.jobs
    rw [hsaved, htables]
    exact .refl _

theorem opened_sound (hw : w.IsNew) : (opened w : Pool ι).desk.Sound := by
  have hnone : (opened w : Pool ι).desk.jobs = [] := congrArg Tables.jobs hw.1
  refine ⟨?_, nofun, fun j hj => ?_, fun _ => trivial, nofun, .nil⟩
  · rw [hnone]
    exact List.nodup_nil
  · rw [hnone] at hj
    cases hj

variable [DecidableEq ι]

theorem goes_opened (hw : w.IsNew) (moves : List (Move ι)) :
    (opened w : Pool ι).Goes ((opened w).afterAll moves) :=
  goes_afterAll (opened_even hw) (opened_sound hw) moves

theorem sound_opened (hw : w.IsNew) (moves : List (Move ι)) :
    ((opened w : Pool ι).afterAll moves).desk.Sound :=
  (opened_sound hw).steps (goes_opened hw moves).steps

/-- However workers get in each other's way, every attempt of a job is made by one worker, which calls
the handler once; no two workers are at one job; a job is tried no more often than it may be; a job that
is over stays as it is, and neither such a job nor one that was told to be cancelled is called again. -/
theorem afterAll_exclusive (hw : w.IsNew) (moves : List (Move ι)) :
    let p := (opened w).afterAll moves
    (∀ j ∈ p.world.tables.jobs, j.attempt = (claims p.log j.id).length
      ∧ (calls p.log j.id = attempts (claims p.log j.id)
        ∨ ∃ i, attempts (claims p.log j.id) = calls p.log j.id ++ [(i, j.attempt)])
      ∧ j.attempt ≤ max 1 j.maxAttempts
      ∧ ((calls p.log j.id).length : Int) ≤ max 1 j.maxAttempts)
    ∧ (∀ i k id, (p.post i).job? = some id → (p.post k).job? = some id → i = k)
    ∧ (∀ before later, moves = before ++ later →
      ∀ j ∈ ((opened w).afterAll before).world.tables.jobs, j.status.isOver = true →
        j ∈ p.world.tables.jobs
        ∧ calls p.log j.id = calls ((opened w).afterAll before).log j.id)
    ∧ Heeded p.log := by
  intro p
  have sound : p.desk.Sound := sound_opened hw moves
  refine ⟨fun j hj => ?_, sound.alone, fun before later hmoves j hj hover => ?_, sound.heeded⟩
  · have account : Desk.Account p.log j := sound.account j hj
    have hcalls := account.calls_le
    have hattempt := account.attempt
    have hbound := account.bound
    exact ⟨hattempt, account.called.imp_right And.right, hbound, by omega⟩
  · have joined : p = ((opened w).afterAll before).afterAll later := by
      subst hmoves
      exact List.foldl_append
    have goes := goes_afterAll (goes_opened hw before).even (sound_opened hw before) later
    rw [joined]
    exact (sound_opened hw before).over goes.steps hj hover

def attempt (i : ι) : List (Move ι) := [.call i, .finish i Job.handle fun j => j.upholds_handle]

/-- A job of a kind that has no handler, so that every attempt fails. -/
def hopeless (maxAttempts : Int) : Job.Draft := ⟨"report", .null, none, none, some maxAttempts, none⟩

/-- Two workers list the same two jobs. One makes the first attempt of the first job, and the other one
the last; the second job is cancelled while it still stands in both lists. -/
def contested : List (Move Bool) :=
  [.schedule (hopeless 2), .schedule (hopeless 1), .list false ⟨0⟩ none none,
    .list true ⟨0⟩ none none, .claim false, .claim true, .cancel (TableName.job.rowId 2)]
  ++ attempt false ++ [.claim true, .list true ⟨200000000⟩ none none, .claim true] ++ attempt true
  ++ [.claim false]

set_option maxRecDepth 10000 in
theorem contested_runs :
    ((opened World.fresh).afterAll (contested.take 7)).world.tables.jobs.map
      (fun j => (j.status, j.attempt)) = [(.running, 1), (.cancelled, 0)]
    ∧ ((opened World.fresh).afterAll contested).world.tables.jobs.map
      (fun j => (j.status, j.attempt)) = [(.failed, 2), (.cancelled, 0)]
    ∧ calls ((opened World.fresh).afterAll contested).log (TableName.job.rowId 1)
      = [(false, 1), (true, 2)] := by
  decide +kernel

/-- Of the two jobs one is tried twice and given up, and the other one stays cancelled. -/
theorem afterAll_exclusive_contested : World.fresh.IsNew
    ∧ let p := (opened World.fresh).afterAll contested
      (∃ j ∈ p.world.tables.jobs, j.status = .failed ∧ (claims p.log j.id).length = 2
        ∧ (2 : Int) ≤ max 1 j.maxAttempts)
      ∧ calls p.log (TableName.job.rowId 1) = [(false, 1), (true, 2)]
      ∧ (∃ j ∈ p.world.tables.jobs, j.status = .cancelled ∧ claims p.log j.id = [])
      ∧ Heeded p.log := by
  obtain ⟨hbefore, hafter, hcalls⟩ := contested_runs
  obtain ⟨hjobs, -, hover, hheeded⟩ := afterAll_exclusive World.fresh_isNew contested
  refine ⟨World.fresh_isNew, ?_, hcalls, ?_, hheeded⟩
  · have hmem : (JobStatus.failed, (2 : Int)) ∈ [(.failed, 2), (.cancelled, 0)] := List.mem_cons_self
    obtain ⟨j, hj, heq⟩ := List.mem_map.mp (hafter.symm ▸ hmem)
    obtain ⟨hstatus, hattempt⟩ := Prod.mk.inj heq
    obtain ⟨hclaims, -, hbound, -⟩ := hjobs j hj
    exact ⟨j, hj, hstatus, by omega, by omega⟩
  · have hmem : (JobStatus.cancelled, (0 : Int)) ∈ [(.running, 1), (.cancelled, 0)] :=
      List.mem_cons_of_mem _ List.mem_cons_self
    obtain ⟨j, hj, heq⟩ := List.mem_map.mp (hbefore.symm ▸ hmem)
    obtain ⟨hstatus, hattempt⟩ := Prod.mk.inj heq
    have hkept := (hover _ _ (List.take_append_drop 7 contested).symm j hj (by rw [hstatus]; rfl)).1
    obtain ⟨hclaims, -⟩ := hjobs j hkept
    exact ⟨j, hkept, hstatus, List.eq_nil_of_length_eq_zero (by omega)⟩

end Pool

/-! ## A sweep by itself

A worker that nobody gets in the way of does what a sweep does as a whole: it lists what is due, then
claims, runs and concludes one job after the other, and ends with the first failure that cannot be
written down.
-/
variable {α β : Type}

/-- The world after a part, saved if the part succeeds and undone if it fails. -/
def World.following (w : World) (part : Flow α) : World :=
  match part w with
  | .ok _ v => v.committed
  | .error _ v => v.rolledBack

namespace World
variable {w v : World} {part : Flow α}

theorem following_ok {a : α} (h : part w = .ok a v) : w.following part = v.committed := by
  rw [following, h]

theorem following_error {e : Failure} (h : part w = .error e v) : w.following part = v.rolledBack := by
  rw [following, h]

theorem following_pure (w : World) (a : α) : w.following (pure a) = w.committed := rfl

theorem following_bind {rest : α → Flow β} {a : α} (h : part w = .ok a v) :
    w.following (part >>= rest) = v.following (rest a) := by
  rw [following, bind_ok h, following]

theorem following_bind_error {rest : α → Flow β} {e : Failure} (h : part w = .error e v) :
    w.following (part >>= rest) = v.rolledBack :=
  following_error (bind_error h rest)

theorem following_map (f : α → β) : w.following (f <$> part) = w.following part := by
  rw [map_eq_pure_bind]
  cases h : part w with
  | ok a v =>
    rw [following_bind h, following_ok h, following_pure]
  | error e v => rw [following_bind_error h, following_error h]

end World

/-- A sweep that is asked for is saved or undone as a whole. -/
theorem Command.after_process (cutoff : Instant) (limit : Option Int) (worker : Option String)
    (w : World) : (Command.errand (.process cutoff limit worker)).after w
      = w.following (Job.process cutoff limit worker) := by
  have hrun : (Command.errand (.process cutoff limit worker)).run
      = (fun _ => ()) <$> Job.process cutoff limit worker := rfl
  rw [← World.following_map fun _ => (), ← hrun]
  unfold after World.following
  cases (Command.errand (.process cutoff limit worker)).run w with
  | ok _ v => rfl
  | error _ v => rfl

namespace Pool
variable [DecidableEq ι] {p : Pool ι} {i : ι}

/-! ## Moves that are not the next one -/

def IsDone (p : Pool ι) (i : ι) : Prop :=
  p.post i = .idle ∨ ∃ cutoff worker, p.post i = .sweeping ⟨cutoff, worker, []⟩

theorem call_sweeping {r : Round} (hpost : p.post i = .sweeping r) : p.call i = p := by
  rw [call, hpost]

theorem finish_sweeping {r : Round} (hpost : p.post i = .sweeping r) (handler : Job → Flow Fields) :
    p.finish i handler = p := by
  rw [finish, hpost]

def rounds (i : ι) (n : Nat) : List (Move ι) := (List.replicate n (.claim i :: attempt i)).flatten

theorem afterAll_rounds (p : Pool ι) (i : ι) (n : Nat) : p.afterAll (rounds i (n + 1))
    = (((p.claim i).call i).finish i Job.handle).afterAll (rounds i n) := rfl

theorem rounds_done (h : p.IsDone i) (n : Nat) : p.afterAll (rounds i n) = p := by
  induction n with
  | zero => rfl
  | succ n ih =>
    rw [afterAll_rounds]
    rcases h with hpost | ⟨cutoff, worker, hpost⟩
    · have hclaim : p.claim i = p := by rw [claim, hpost]
      have hcall : p.call i = p := by rw [call, hpost]
      have hfinish : p.finish i Job.handle = p := by rw [finish, hpost]
      rw [hclaim, hcall, hfinish, ih]
    · have hclaim : p.claim i = p := by rw [claim, hpost]
      rw [hclaim, call_sweeping hpost, finish_sweeping hpost, ih]

/-! ## Rounds that nobody gets in the way of -/

section Alone
variable (hp : p.Even) (hd : p.desk.Sound)
include hp

theorem claim_alone {cutoff : Instant} {worker : Option String} {id : Uuid} {queue : List Uuid}
    (hpost : p.post i = .sweeping ⟨cutoff, worker, id :: queue⟩) :
    Job.claimPending id worker p.world = .ok true (p.claim i).world
      ∧ (p.claim i).post i = .claimed ⟨cutoff, worker, queue⟩ id
    ∨ Job.claimPending id worker p.world = .ok false (p.claim i).world
      ∧ (p.claim i).post i = .sweeping ⟨cutoff, worker, queue⟩ := by
  have claims := Job.claimPending_ends hp.queued.numbered.distinct id worker
  cases hclaim : Job.claimPending id worker p.world with
  | error e v => exact (claims.bad_of hclaim).elim
  | ok won v =>
    have hsaved : v.committed = v := World.committed_of_even (claims.ok_of hclaim).1
    rw [claim, hpost]
    cases won with
    | true =>
      simp only [carry, hclaim, hsaved]
      exact .inl ⟨rfl, Function.update_self i _ _⟩
    | false =>
      simp only [carry, hclaim, hsaved]
      exact .inr ⟨rfl, Function.update_self i _ _⟩

include hd

theorem attempt_alone {r : Round} {id : Uuid} (hpost : p.post i = .claimed r id) :
    let q := (p.call i).finish i Job.handle
    (∃ outcome, q.post i = .sweeping r ∧ Job.runClaimed id p.world = .ok outcome q.world)
      ∨ q.post i = .idle ∧ ∃ e v, Job.runClaimed id p.world = .error e v ∧ q.world = v.rolledBack := by
  intro q
  have hq : q = (p.call i).finish i Job.handle := rfl
  have found := fetch_ends (ρ := Job) id p.world
  cases hfetch : fetch Job id p.world with
  | error e v =>
    have hcall : p.call i = { p with world := v.rolledBack }.put i .idle none := by
      rw [call, hpost]
      simp only [carry, hfetch]
    have hidle : (p.call i).post i = .idle := by
      rw [hcall]
      exact Function.update_self i _ _
    rw [finish, hidle] at hq
    refine .inr ⟨hq ▸ hidle, e, v, ?_, by rw [hq, hcall]; rfl⟩
    rw [Job.runClaimed_eq, bind_error hfetch]
  | ok j v =>
    obtain rfl : v = p.world := (found.ok_of hfetch).1
    have hcall : p.call i = p.put i (.running r j) (some (.called i j.id j.attempt)) := by
      rw [call, hpost]
      simp only [carry, hfetch, World.committed_of_even hp.saved]
    have hrunning : (p.call i).post i = .running r j := by
      rw [hcall]
      exact Function.update_self i _ _
    have hworld : (p.call i).world = p.world := by rw [hcall]; rfl
    have goes := goes_call hp i
    obtain ⟨hj, hstatus, -⟩ := (hd.steps goes.steps).held_at hrunning
    have concludes := Job.conclude_ends goes.even.queued goes.even.saved hj hstatus j.upholds_handle
    have hrun : Job.runClaimed id p.world = j.conclude j.handle (p.call i).world := by
      rw [Job.runClaimed_eq, bind_ok hfetch, hworld]
    rw [finish, hrunning] at hq
    cases hconclude : j.conclude j.handle (p.call i).world with
    | ok outcome x =>
      simp only [carry, hconclude] at hq
      have hsaved : x.committed = x := World.committed_of_even (concludes.ok_of hconclude).saved
      refine .inl ⟨outcome, by rw [hq]; exact Function.update_self i _ _, ?_⟩
      rw [hrun, hconclude, hq]
      exact congrArg (EStateM.Result.ok outcome) hsaved.symm
    | error e x =>
      simp only [carry, hconclude] at hq
      refine .inr ⟨by rw [hq]; exact Function.update_self i _ _, e, x, hrun.trans hconclude, ?_⟩
      rw [hq]
      rfl

/-- What a worker does with its list is what a sweep does with it. -/
theorem rounds_alone {cutoff : Instant} {worker : Option String} {ids : List Uuid}
    (hpost : p.post i = .sweeping ⟨cutoff, worker, ids⟩) {n : Nat} (hn : ids.length ≤ n) (s : Sweep) :
    (p.afterAll (rounds i n)).world = p.world.following (Job.runEach worker ids s) := by
  induction ids generalizing p n s with
  | nil =>
    rw [rounds_done (.inr ⟨cutoff, worker, hpost⟩), Job.runEach, World.following_pure]
    exact (World.committed_of_even hp.saved).symm
  | cons id rest ih =>
    cases n with
    | zero => cases hn
    | succ n =>
      replace hn : rest.length ≤ n := Nat.le_of_succ_le_succ hn
      have claimed := goes_claim hp i
      have sound := hd.steps claimed.steps
      rw [afterAll_rounds, Job.runEach]
      rcases claim_alone hp hpost with ⟨hclaim, hclaimed⟩ | ⟨hclaim, hskipped⟩
      · have called := goes_call claimed.even i
        have sound' := sound.steps called.steps
        have finished := goes_finish called.even sound' i fun j => j.upholds_handle
        rw [World.following_bind hclaim, if_pos rfl]
        rcases attempt_alone claimed.even sound hclaimed with
          ⟨outcome, hsweeping, hrun⟩ | ⟨hidle, e, v, hrun, hv⟩
        · have sound'' := sound'.steps finished.steps
          rw [World.following_bind hrun, ih finished.even sound'' hsweeping hn]
        · rw [World.following_bind_error hrun, rounds_done (.inl hidle), hv]
      · rw [World.following_bind hclaim, call_sweeping hskipped, finish_sweeping hskipped,
          ih claimed.even sound hskipped hn s.skip]
        rfl

/-- A worker that nobody gets in the way of does what a sweep does, if it is given time for as many jobs
as there are. -/
theorem sweep_alone (i : ι) (cutoff : Instant) (limit : Option Int) (worker : Option String) :
    (p.afterAll (.list i cutoff limit worker :: rounds i p.world.tables.jobs.length)).world
      = (Command.errand (.process cutoff limit worker)).after p.world := by
  have listed := goes_list hp i cutoff limit worker
  have due := Job.dueNow_ends hp.queued.numbered.distinct cutoff limit
  have first (n : Nat) : p.afterAll (.list i cutoff limit worker :: rounds i n)
      = (p.list i cutoff limit worker).afterAll (rounds i n) := rfl
  rw [first, Command.after_process, Job.process_eq]
  cases hdue : Job.dueNow cutoff limit p.world with
  | error e v =>
    have hlist : p.list i cutoff limit worker = { p with world := v.rolledBack }.put i .idle none := by
      simp only [list, carry, hdue]
    have hidle : (p.list i cutoff limit worker).post i = .idle := by
      rw [hlist]
      exact Function.update_self i _ _
    rw [World.following_bind_error hdue, rounds_done (.inl hidle), hlist]
    rfl
  | ok ids v =>
    obtain ⟨rfl, hdistinct, hids⟩ := due.ok_of hdue
    have hlist : p.list i cutoff limit worker
        = p.put i (.sweeping ⟨cutoff, worker, ids⟩) (some (.listed i)) := by
      simp only [list, carry, hdue, World.committed_of_even hp.saved]
    have hsweeping : (p.list i cutoff limit worker).post i = .sweeping ⟨cutoff, worker, ids⟩ := by
      rw [hlist]
      exact Function.update_self i _ _
    have hlength : ids.length ≤ p.world.tables.jobs.length := by
      have hsub : ids ⊆ p.world.tables.jobs.map Job.id := fun id hid => by
        obtain ⟨j, hj, rfl, -⟩ := hids id hid
        exact List.mem_map_of_mem hj
      have hle := (hdistinct.subperm hsub).length_le
      rwa [List.length_map] at hle
    rw [World.following_bind hdue,
      rounds_alone listed.even (hd.steps listed.steps) hsweeping hlength .start, hlist]
    rfl

end Alone

end Pool

end RecordFlow
