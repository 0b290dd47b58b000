import Mathlib.Data.List.Pairwise
import Mathlib.Logic.Function.Basic
import Mathlib.Logic.Relation
import RecordFlow.Proofs.Job.Attempt

/-! # Workers at the jobs

Any number of workers are at the same jobs. Each of them lists what is due, then claims and runs the
jobs of its list one after the other, while the others do the same and jobs are scheduled and
cancelled. A list is old as soon as it is read: all that keeps workers apart is that a claim finds the
job pending. What is kept beside the jobs is where every worker stands, and a log of what was done.

A job that is claimed is not pending any more, so that nobody else claims it until the worker that has
it puts it off. So every attempt is made by one worker, a job is tried no more often than it may be,
and one that is completed, failed or cancelled is never touched again.
-/
namespace RecordFlow
open Calendar
variable {ι : Type}

structure Round where
  cutoff : Instant
  worker : Option String
  queue : List Uuid
  deriving DecidableEq

inductive Post where
  | idle
  | sweeping (r : Round)
  | claimed (r : Round) (job : Uuid)
  | running (r : Round) (j : Job)

def Post.job? : Post → Option Uuid
  | .claimed _ id => some id
  | .running _ j => some j.id
  | _ => none

/-! ## The log -/

inductive Deed (ι : Type) where
  | listed (worker : ι)
  | claimed (worker : ι) (job : Uuid)
  | called (worker : ι) (job : Uuid) (attempt : Int)
  | postponed (worker : ι) (job : Uuid)
  | cancelled (job : Uuid)

namespace Deed

def job? : Deed ι → Option Uuid
  | listed _ => none
  | claimed _ id => some id
  | called _ id _ => some id
  | postponed _ id => some id
  | cancelled id => some id

def claim? (id : Uuid) : Deed ι → Option ι
  | claimed i job => if job = id then some i else none
  | _ => none

def call? (id : Uuid) : Deed ι → Option (ι × Int)
  | called i job n => if job = id then some (i, n) else none
  | _ => none

end Deed

def claims (log : List (Deed ι)) (id : Uuid) : List ι := log.filterMap (Deed.claim? id)

def calls (log : List (Deed ι)) (id : Uuid) : List (ι × Int) := log.filterMap (Deed.call? id)

/-- The attempts that claims begin, counted from one. -/
def attempts (claims : List ι) : List (ι × Int) := claims.mapIdx fun n i => (i, (n : Int) + 1)

/-- No handler is called once its job was told to be cancelled. -/
def Heeded (log : List (Deed ι)) : Prop :=
  log.Pairwise fun e e' => ∀ id i n, e = .cancelled id → e' ≠ .called i id n

section Log
variable {log : List (Deed ι)} {e : Deed ι} {id : Uuid} {i : ι} {n : Int}

theorem claims_append (log news : List (Deed ι)) (id : Uuid) :
    claims (log ++ news) id = claims log id ++ claims news id := List.filterMap_append

theorem calls_append (log news : List (Deed ι)) (id : Uuid) :
    calls (log ++ news) id = calls log id ++ calls news id := List.filterMap_append

theorem attempts_append (l : List ι) (i : ι) :
    attempts (l ++ [i]) = attempts l ++ [(i, (l.length : Int) + 1)] := List.mapIdx_concat

theorem length_attempts (l : List ι) : (attempts l).length = l.length := List.length_mapIdx

@[simp] theorem claims_claimed (i : ι) (id : Uuid) : claims [.claimed i id] id = [i] := by
  simp [claims, Deed.claim?]

@[simp] theorem calls_claimed (i : ι) (job id : Uuid) : calls [.claimed i job] id = [] := rfl

@[simp] theorem claims_called (i : ι) (job : Uuid) (n : Int) (id : Uuid) :
    claims [.called i job n] id = [] := rfl

@[simp] theorem calls_called (i : ι) (id : Uuid) (n : Int) :
    calls [.called i id n] id = [(i, n)] := by
  simp [calls, Deed.call?]

theorem claims_none {news : List (Deed ι)} (h : ∀ e ∈ news, e.claim? id = none) :
    claims news id = [] := List.filterMap_eq_nil_iff.mpr h

theorem calls_none {news : List (Deed ι)} (h : ∀ e ∈ news, e.call? id = none) :
    calls news id = [] := List.filterMap_eq_nil_iff.mpr h

/-- A deed about another job is neither a claim nor a call of this one. -/
theorem Deed.elsewhere (h : e.job? ≠ some id) : e.claim? id = none ∧ e.call? id = none := by
  cases e with
  | claimed i job => exact ⟨if_neg fun hid => h (by rw [job?, hid]), rfl⟩
  | called i job n => exact ⟨rfl, if_neg fun hid => h (by rw [job?, hid])⟩
  | _ => exact ⟨rfl, rfl⟩

theorem Heeded.append {news : Option (Deed ι)} (h : Heeded log)
    (hnews : ∀ id i n, news = some (.called i id n) → .cancelled id ∉ log) :
    Heeded (log ++ news.toList) := by
  refine List.pairwise_append.mpr ⟨h, ?_, fun e he e' he' id i n hcancelled hcalled => ?_⟩
  · cases news with
    | none => exact .nil
    | some e => exact List.pairwise_singleton _ e
  · have hsome : news = some (.called i id n) := hcalled ▸ Option.mem_toList.mp he'
    exact hnews id i n hsome (hcancelled ▸ he)

end Log

/-! ## What may happen -/

structure Desk (ι : Type) where
  jobs : List Job
  post : ι → Post
  log : List (Deed ι)

namespace Desk
variable [DecidableEq ι]

def put (d : Desk ι) (i : ι) (post : Post) (news : Option (Deed ι)) : Desk ι :=
  { d with post := Function.update d.post i post, log := d.log ++ news.toList }

def replace (d : Desk ι) (k : Job) : Desk ι := { d with jobs := d.jobs.map (overwrite k) }

/-- All that may happen at once. Nothing but the status of a job keeps it from being claimed, and
nothing at all keeps a worker from breaking off its sweep. -/
inductive Step : Desk ι → Desk ι → Prop
  | rest {d : Desk ι} {jobs : List Job} (h : Job.AllRest d.jobs jobs)
    (hids : (jobs.map Job.id).Nodup) : Step d { d with jobs := jobs }
  | list {d : Desk ι} {cutoff : Instant} {ids : List Uuid} (i : ι) (worker : Option String)
    (hdistinct : ids.Nodup) (hdue : ∀ id ∈ ids, ∃ j ∈ d.jobs, j.id = id ∧ j.runAt ≤ cutoff) :
    Step d (d.put i (.sweeping ⟨cutoff, worker, ids⟩) (some (.listed i)))
  | stop {d : Desk ι} (i : ι) : Step d (d.put i .idle none)
  | skip {d : Desk ι} {i : ι} {cutoff : Instant} {worker : Option String} {id : Uuid}
    {queue : List Uuid} (hpost : d.post i = .sweeping ⟨cutoff, worker, id :: queue⟩) :
    Step d (d.put i (.sweeping ⟨cutoff, worker, queue⟩) none)
  | claim {d : Desk ι} {i : ι} {cutoff : Instant} {worker : Option String} {queue : List Uuid}
    {j : Job} (hpost : d.post i = .sweeping ⟨cutoff, worker, j.id :: queue⟩) (hj : j ∈ d.jobs)
    (hpending : j.status = .pending) (claimant : String) (t : Instant) :
    Step d ((d.replace (j.claim claimant t)).put i (.claimed ⟨cutoff, worker, queue⟩ j.id)
      (some (.claimed i j.id)))
  | call {d : Desk ι} {i : ι} {r : Round} {j : Job} (hpost : d.post i = .claimed r j.id)
    (hj : j ∈ d.jobs) : Step d (d.put i (.running r j) (some (.called i j.id j.attempt)))
  | conclude {d : Desk ι} {i : ι} {r : Round} {j k : Job} {outcome : JobOutcome}
    (hpost : d.post i = .running r j) (h : j.Concluded outcome k) :
    Step d ((d.replace k).put i (.sweeping r)
      (if outcome = .rescheduled then some (.postponed i j.id) else none))
  | cancel {d : Desk ι} {j : Job} (hj : j ∈ d.jobs) (hcancelled : j.status = .cancelled) :
    Step d { d with log := d.log ++ [.cancelled j.id] }

end Desk

/-! ## Attempts of one worker each -/

def JobStatus.isOver : JobStatus → Bool
  | .completed | .failed | .cancelled => true
  | _ => false

namespace Desk

/-- What the log says about a job: it was claimed as often as it was tried, and each time its handler
was called by the worker that had claimed it, though the last one may be about to. -/
structure Account (log : List (Deed ι)) (j : Job) : Prop where
  attempt : j.attempt = (claims log j.id).length
  called : calls log j.id = attempts (claims log j.id) ∨ j.status = .running
    ∧ ∃ i, attempts (claims log j.id) = calls log j.id ++ [(i, j.attempt)]
  bound : j.attempt ≤ max 1 j.maxAttempts
  pending : j.status = .pending → j.attempt < max 1 j.maxAttempts
  cancelled : .cancelled j.id ∈ log → j.status = .cancelled

def Held (d : Desk ι) (i : ι) : Post → Prop
  | .claimed _ id => ∃ j ∈ d.jobs, j.id = id ∧ j.status = .running
    ∧ attempts (claims d.log id) = calls d.log id ++ [(i, j.attempt)]
  | .running _ j => j ∈ d.jobs ∧ j.status = .running
    ∧ calls d.log j.id = attempts (claims d.log j.id)
  | _ => True

/-- What stands behind a post is still there, as long as the job is and no more is heard of it. -/
theorem Held.mono {d d' : Desk ι} {i : ι} {post : Post} (h : d.Held i post)
    (hjobs : ∀ j ∈ d.jobs, j.status = .running → post.job? = some j.id → j ∈ d'.jobs)
    (hclaims : ∀ id, post.job? = some id → claims d'.log id = claims d.log id)
    (hcalls : ∀ id, post.job? = some id → calls d'.log id = calls d.log id) : d'.Held i post := by
  cases post with
  | idle => trivial
  | sweeping r => trivial
  | claimed r id =>
    obtain ⟨j, hj, hid, hrunning, hattempts⟩ := h
    have hat : (Post.claimed r id).job? = some j.id := congrArg some hid.symm
    refine ⟨j, hjobs j hj hrunning hat, hid, hrunning, ?_⟩
    rw [hclaims id rfl, hcalls id rfl]
    exact hattempts
  | running r j =>
    obtain ⟨hj, hrunning, hattempts⟩ := h
    refine ⟨hjobs j hj hrunning rfl, hrunning, ?_⟩
    rw [hclaims j.id rfl, hcalls j.id rfl]
    exact hattempts

structure Sound (d : Desk ι) : Prop where
  distinct : (d.jobs.map Job.id).Nodup
  known : ∀ e ∈ d.log, ∀ id, e.job? = some id → ∃ j ∈ d.jobs, j.id = id
  account : ∀ j ∈ d.jobs, Account d.log j
  held : ∀ i, d.Held i (d.post i)
  alone : ∀ i k id, (d.post i).job? = some id → (d.post k).job? = some id → i = k
  heeded : Heeded d.log

variable {d d' : Desk ι}

namespace Account
variable {log news : List (Deed ι)} {j k : Job} {i : ι}

theorem grow (h : Account log j) (hclaims : claims news j.id = []) (hcalls : calls news j.id = [])
    (hcancelled : .cancelled j.id ∈ news → j.status = .cancelled) : Account (log ++ news) j where
  attempt := by
    rw [claims_append, hclaims, List.append_nil]
    exact h.attempt
  called := by
    rw [claims_append, calls_append, hclaims, hcalls, List.append_nil, List.append_nil]
    exact h.called
  bound := h.bound
  pending := h.pending
  cancelled hmem := (List.mem_append.mp hmem).elim h.cancelled hcancelled

/-- A job that is not running was called in each of its attempts. -/
theorem called_all (h : Account log j) (hnot : j.status ≠ .running) :
    calls log j.id = attempts (claims log j.id) :=
  h.called.resolve_right fun hr => hnot hr.1

theorem uncancelled (h : Account log j) (hnot : j.status ≠ .cancelled) : .cancelled j.id ∉ log :=
  fun hmem => hnot (h.cancelled hmem)

theorem calls_le (h : Account log j) : (calls log j.id).length ≤ (claims log j.id).length := by
  rw [← length_attempts (claims log j.id)]
  rcases h.called with hall | ⟨-, i, hattempts⟩
  · exact Nat.le_of_eq (congrArg List.length hall)
  · rw [hattempts, List.length_append]
    exact Nat.le_add_right _ _

theorem rests (h : Account log j) (hjk : j.Rests k) : Account log k := by
  cases hjk with
  | stay => exact h
  | cancel hpending t =>
    have hall := h.called_all (by rw [hpending]; exact nofun)
    exact ⟨h.attempt, .inl hall, h.bound, nofun, fun _ => rfl⟩

theorem untried (hj : j.Untried) (hclaims : claims log j.id = []) (hcalls : calls log j.id = [])
    (hcancelled : .cancelled j.id ∉ log) : Account log j where
  attempt := by
    rw [hj.attempt, hclaims]
    rfl
  called := by
    rw [hclaims, hcalls]
    exact .inl rfl
  bound := by
    rw [hj.attempt]
    omega
  pending _ := by
    rw [hj.attempt]
    omega
  cancelled hmem := absurd hmem hcancelled

/-- A claim begins one more attempt, and the claimant is about to call the handler. -/
theorem attempts_claimed (h : Account log j) (hpending : j.status = .pending) (i : ι) :
    attempts (claims (log ++ [.claimed i j.id]) j.id)
      = calls (log ++ [.claimed i j.id]) j.id ++ [(i, j.attempt + 1)] := by
  have hall := h.called_all (by rw [hpending]; exact nofun)
  rw [claims_append, calls_append, claims_claimed, calls_claimed, attempts_append, List.append_nil,
    hall, h.attempt]

theorem claim (h : Account log j) (hpending : j.status = .pending) (i : ι) (claimant : String)
    (t : Instant) : Account (log ++ [.claimed i j.id]) (j.claim claimant t) where
  attempt := by
    have hclaims : claims (log ++ [.claimed i j.id]) j.id = claims log j.id ++ [i] := by
      rw [claims_append, claims_claimed]
    show j.attempt + 1 = ((claims _ j.id).length : Int)
    rw [hclaims, List.length_append, h.attempt]
    rfl
  called := .inr ⟨rfl, i, h.attempts_claimed hpending i⟩
  bound := by
    have hlt := h.pending hpending
    show j.attempt + 1 ≤ max 1 j.maxAttempts
    omega
  pending := nofun
  cancelled hmem := absurd ((List.mem_append.mp hmem).resolve_right (by simp))
    (h.uncancelled (by rw [hpending]; exact nofun))

theorem calls_called_all (hheld : attempts (claims log j.id) = calls log j.id ++ [(i, j.attempt)]) :
    calls (log ++ [.called i j.id j.attempt]) j.id
      = attempts (claims (log ++ [.called i j.id j.attempt]) j.id) := by
  rw [calls_append, claims_append, calls_called, claims_called, List.append_nil, hheld]

theorem call (h : Account log j)
    (hheld : attempts (claims log j.id) = calls log j.id ++ [(i, j.attempt)]) :
    Account (log ++ [.called i j.id j.attempt]) j where
  attempt := by
    rw [claims_append, claims_called, List.append_nil]
    exact h.attempt
  called := .inl (calls_called_all hheld)
  bound := h.bound
  pending := h.pending
  cancelled hmem := h.cancelled ((List.mem_append.mp hmem).resolve_right (by simp))

/-- A job waits for another attempt only if there is one left. -/
theorem conclude {outcome : JobOutcome} (h : Account log j) (hrunning : j.status = .running)
    (hall : calls log j.id = attempts (claims log j.id)) (hk : j.Concluded outcome k) :
    Account log k := by
  have uncancelled : .cancelled j.id ∉ log := h.uncancelled (by rw [hrunning]; exact nofun)
  cases hk with
  | complete => exact ⟨h.attempt, .inl hall, h.bound, nofun, fun hmem => absurd hmem uncancelled⟩
  | postpone hretry =>
    have hleft : j.attempt < j.maxAttempts := of_decide_eq_true hretry
    exact ⟨h.attempt, .inl hall, h.bound, fun _ => Int.lt_of_lt_of_le hleft (Int.le_max_right _ _),
      fun hmem => absurd hmem uncancelled⟩
  | fail => exact ⟨h.attempt, .inl hall, h.bound, nofun, fun hmem => absurd hmem uncancelled⟩

end Account

namespace Sound

theorem eq_of_id (h : d.Sound) {j k : Job} (hj : j ∈ d.jobs) (hk : k ∈ d.jobs) (hid : j.id = k.id) :
    j = k :=
  List.inj_on_of_nodup_map h.distinct hj hk hid

theorem unheard (h : d.Sound) {id : Uuid} (hid : ∀ j ∈ d.jobs, j.id ≠ id) :
    claims d.log id = [] ∧ calls d.log id = [] ∧ .cancelled id ∉ d.log := by
  have elsewhere : ∀ e ∈ d.log, e.job? ≠ some id := fun e he hjob => by
    obtain ⟨j, hj, hjid⟩ := h.known e he id hjob
    exact hid j hj hjid
  exact ⟨claims_none fun e he => (Deed.elsewhere (elsewhere e he)).1,
    calls_none fun e he => (Deed.elsewhere (elsewhere e he)).2, fun he => elsewhere _ he rfl⟩

theorem held_at (h : d.Sound) {i : ι} {post : Post} (hpost : d.post i = post) : d.Held i post :=
  hpost ▸ h.held i

theorem at_running (h : d.Sound) {i : ι} {id : Uuid} (hat : (d.post i).job? = some id) :
    ∃ j ∈ d.jobs, j.id = id ∧ j.status = .running := by
  cases hpost : d.post i with
  | idle => rw [hpost] at hat; cases hat
  | sweeping r => rw [hpost] at hat; cases hat
  | claimed r job =>
    rw [hpost] at hat
    obtain ⟨j, hj, hid, hrunning, -⟩ := h.held_at hpost
    exact ⟨j, hj, hid.trans (Option.some.inj hat), hrunning⟩
  | running r j =>
    rw [hpost] at hat
    obtain ⟨hj, hrunning, -⟩ := h.held_at hpost
    exact ⟨j, hj, Option.some.inj hat, hrunning⟩

/-! ## What one step keeps -/

theorem rest {jobs : List Job} (h : d.Sound) (hrest : Job.AllRest d.jobs jobs)
    (hids : (jobs.map Job.id).Nodup) : Sound { d with jobs := jobs } where
  distinct := hids
  known e he id hid := by
    obtain ⟨j, hj, hjid⟩ := h.known e he id hid
    obtain ⟨k, hk, hjk⟩ := hrest.kept j hj
    exact ⟨k, hk, hjk.id.trans hjid⟩
  account k hk := by
    rcases hrest.origin k hk with ⟨j, hj, hjk⟩ | ⟨huntried, hnew⟩
    · exact (h.account j hj).rests hjk
    · obtain ⟨hclaims, hcalls, hcancelled⟩ := h.unheard hnew
      exact .untried huntried hclaims hcalls hcancelled
  held i := (h.held i).mono
    (fun j hj hrunning _ => hrest.mem_of_status hj (by rw [hrunning]; exact nofun))
    (fun _ _ => rfl) fun _ _ => rfl
  alone := h.alone
  heeded := h.heeded

theorem note (h : d.Sound) {e : Deed ι} (hclaim : ∀ id, e.claim? id = none)
    (hcall : ∀ id, e.call? id = none) (hknown : ∀ id, e.job? = some id → ∃ j ∈ d.jobs, j.id = id)
    (hcancelled : ∀ j ∈ d.jobs, e = .cancelled j.id → j.status = .cancelled) :
    Sound { d with log := d.log ++ [e] } := by
  have hclaims (id : Uuid) : claims [e] id = [] := claims_none (by simpa using hclaim id)
  have hcalls (id : Uuid) : calls [e] id = [] := calls_none (by simpa using hcall id)
  refine ⟨h.distinct, fun e' he' id hid => ?_, fun j hj => ?_, fun i => ?_, h.alone, ?_⟩
  · rcases List.mem_append.mp he' with he' | he'
    · exact h.known e' he' id hid
    · exact hknown id (List.mem_singleton.mp he' ▸ hid)
  · refine (h.account j hj).grow (hclaims j.id) (hcalls j.id) fun hmem => ?_
    exact hcancelled j hj (List.mem_singleton.mp hmem).symm
  · refine (h.held i).mono (fun j hj _ _ => hj) (fun id _ => ?_) fun id _ => ?_
    · rw [claims_append, hclaims, List.append_nil]
    · rw [calls_append, hcalls, List.append_nil]
  · have uncalled : ∀ id i n, some e = some (.called i id n) → .cancelled id ∉ d.log :=
      fun id i n he => by
        have hnone := hcall id
        rw [Option.some.inj he, Deed.call?, if_pos rfl] at hnone
        cases hnone
    exact h.heeded.append uncalled

variable [DecidableEq ι] {j k : Job} {i : ι} {post : Post}

/-- A worker goes on to a post at which no other worker is. -/
theorem alone_update (h : d.Sound)
    (hpost : ∀ id, post.job? = some id → ∀ l, l ≠ i → (d.post l).job? ≠ some id) (l m : ι) (id : Uuid)
    (hl : (Function.update d.post i post l).job? = some id)
    (hm : (Function.update d.post i post m).job? = some id) : l = m := by
  by_cases hli : l = i <;> by_cases hmi : m = i
  · rw [hli, hmi]
  · rw [hli, Function.update_self] at hl
    rw [Function.update_of_ne hmi] at hm
    exact absurd hm (hpost id hl m hmi)
  · rw [hmi, Function.update_self] at hm
    rw [Function.update_of_ne hli] at hl
    exact absurd hl (hpost id hm l hli)
  · rw [Function.update_of_ne hli] at hl
    rw [Function.update_of_ne hmi] at hm
    exact h.alone l m id hl hm

/-- A worker leaves the job that it was at, if there was any. -/
theorem leave (h : d.Sound) (i : ι) (hpost : post.job? = none) :
    Sound { d with post := Function.update d.post i post } where
  distinct := h.distinct
  known := h.known
  account := h.account
  held := by
    refine (Function.forall_update_iff d.post fun l post => Held _ l post).mpr ⟨?_, fun l _ => ?_⟩
    · cases post with
      | idle => trivial
      | sweeping r => trivial
      | claimed r id => cases hpost
      | running r j => cases hpost
    · exact (h.held l).mono (fun j hj _ _ => hj) (fun _ _ => rfl) fun _ _ => rfl
  alone := h.alone_update fun id hat => by
    rw [hpost] at hat
    cases hat
  heeded := h.heeded

omit [DecidableEq ι] in
theorem mem_replaced (hj : j ∈ d.jobs) (hid : k.id = j.id) : k ∈ (d.replace k).jobs :=
  mem_overwrite hj hid.symm

omit [DecidableEq ι] in
theorem mem_replace_of_ne (hj : j ∈ d.jobs) (hne : j.id ≠ k.id) : j ∈ (d.replace k).jobs :=
  List.mem_map.mpr ⟨j, hj, overwrite_of_ne hne⟩

omit [DecidableEq ι] in
theorem mem_replace {r : Job} (hj : j ∈ d.jobs) (hid : k.id = j.id) :
    r ∈ (d.replace k).jobs ↔ r = k ∨ r ∈ d.jobs ∧ r.id ≠ j.id := by
  constructor
  · intro hr
    obtain ⟨s, hs, rfl⟩ := List.mem_map.mp hr
    by_cases hsame : s.id = k.id
    · exact .inl (overwrite_of_eq hsame)
    · have hkept : overwrite k s = s := overwrite_of_ne hsame
      rw [hkept]
      exact .inr ⟨hs, hid ▸ hsame⟩
  · rintro (rfl | ⟨hr, hne⟩)
    · exact mem_replaced hj hid
    · exact mem_replace_of_ne hr fun h => hne (h.trans hid)

omit [DecidableEq ι] in
/-- A job that nobody is at is replaced. -/
theorem replace (h : d.Sound) (hj : j ∈ d.jobs) (hid : k.id = j.id)
    (hfree : ∀ l, (d.post l).job? ≠ some j.id) (haccount : Account d.log k) :
    (d.replace k).Sound where
  distinct := (ids_map fun r _ => id_overwrite k r).symm ▸ h.distinct
  known e he id hknown := by
    obtain ⟨r, hr, hrid⟩ := h.known e he id hknown
    exact ⟨_, List.mem_map_of_mem hr, (id_overwrite k r).trans hrid⟩
  account r hr := by
    rcases (mem_replace hj hid).mp hr with rfl | ⟨hr, -⟩
    · exact haccount
    · exact h.account r hr
  held l := (h.held l).mono
    (fun r hr _ hat => mem_replace_of_ne hr fun hrid => hfree l (hrid.trans hid ▸ hat))
    (fun _ _ => rfl) fun _ _ => rfl
  alone := h.alone
  heeded := h.heeded

/-- A worker goes on with a job that no other worker is at, and this is written down. -/
theorem work (h : d.Sound) {e : Deed ι} (hj : j ∈ d.jobs) (hid : k.id = j.id)
    (he : e.job? = some j.id) (hothers : ∀ l, l ≠ i → (d.post l).job? ≠ some j.id)
    (haccount : Account (d.log ++ [e]) k) (hpost : post.job? = some j.id)
    (hheld : ((d.replace k).put i post (some e)).Held i post)
    (hheeded : ∀ l n, e = .called l j.id n → .cancelled j.id ∉ d.log) :
    ((d.replace k).put i post (some e)).Sound := by
  have elsewhere {id : Uuid} (hne : id ≠ j.id) : ∀ e' ∈ [e], e'.job? ≠ some id := fun e' he' hat => by
    rw [List.mem_singleton.mp he', he] at hat
    exact hne (Option.some.inj hat).symm
  have hclaims {id : Uuid} (hne : id ≠ j.id) : claims [e] id = [] :=
    claims_none fun e' he' => (Deed.elsewhere (elsewhere hne e' he')).1
  have hcalls {id : Uuid} (hne : id ≠ j.id) : calls [e] id = [] :=
    calls_none fun e' he' => (Deed.elsewhere (elsewhere hne e' he')).2
  constructor
  · exact (ids_map fun r _ => id_overwrite k r).symm ▸ h.distinct
  · intro e' he' id hknown
    have hthere : ∃ r ∈ d.jobs, r.id = id := by
      rcases List.mem_append.mp he' with he' | he'
      · exact h.known e' he' id hknown
      · rw [List.mem_singleton.mp he', he] at hknown
        exact ⟨j, hj, Option.some.inj hknown⟩
    obtain ⟨r, hr, hrid⟩ := hthere
    exact ⟨_, List.mem_map_of_mem hr, (id_overwrite k r).trans hrid⟩
  · intro r hr
    rcases (mem_replace hj hid).mp hr with rfl | ⟨hr, hne⟩
    · exact haccount
    · refine (h.account r hr).grow (hclaims hne) (hcalls hne) fun hmem => ?_
      exact absurd rfl (elsewhere hne _ hmem)
  · refine (Function.forall_update_iff d.post fun l post => Held _ l post).mpr ⟨hheld, fun l hl => ?_⟩
    have others {id : Uuid} (hat : (d.post l).job? = some id) : id ≠ j.id := fun hsame =>
      hothers l hl (hsame ▸ hat)
    refine (h.held l).mono (fun r hr _ hat => ?_) (fun id hat => ?_) fun id hat => ?_
    · exact mem_replace_of_ne hr fun hrid => others hat (hrid.trans hid)
    · exact (claims_append d.log [e] id).trans (by rw [hclaims (others hat), List.append_nil])
    · exact (calls_append d.log [e] id).trans (by rw [hcalls (others hat), List.append_nil])
  · refine h.alone_update fun id hat l hl => ?_
    rw [hpost] at hat
    exact Option.some.inj hat ▸ hothers l hl
  · refine h.heeded.append fun id l n hcalled => ?_
    obtain rfl := Option.some.inj hcalled
    obtain rfl : id = j.id := Option.some.inj he
    exact hheeded l n rfl

omit [DecidableEq ι] in
/-- Nobody is at a job that is not running. -/
theorem nobody_at (h : d.Sound) (hj : j ∈ d.jobs) (hnot : j.status ≠ .running) (l : ι) :
    (d.post l).job? ≠ some j.id := fun hat => by
  obtain ⟨r, hr, hid, hrunning⟩ := h.at_running hat
  exact hnot (h.eq_of_id hr hj hid ▸ hrunning)

omit [DecidableEq ι] in
theorem replace_self (h : d.Sound) (hj : j ∈ d.jobs) : d.replace j = d := by
  have kept : d.jobs.map (overwrite j) = d.jobs := by
    refine (List.map_congr_left fun r hr => ?_).trans (List.map_id' d.jobs)
    by_cases hid : r.id = j.id
    · rw [h.eq_of_id hr hj hid]
      exact overwrite_of_eq rfl
    · exact overwrite_of_ne hid
  rw [Desk.replace, kept]

/-- All of this is kept by whatever may happen. -/
theorem step (h : d.Sound) (hstep : Step d d') : d'.Sound := by
  cases hstep with
  | rest hrest hids => exact h.rest hrest hids
  | list i worker _ _ =>
    have noted : Sound { d with log := d.log ++ [.listed i] } :=
      h.note (fun _ => rfl) (fun _ => rfl) (fun _ hid => nomatch hid) fun _ _ he => nomatch he
    exact noted.leave i rfl
  | stop i =>
    rw [put, Option.toList, List.append_nil]
    exact h.leave i rfl
  | @skip i =>
    rw [put, Option.toList, List.append_nil]
    exact h.leave i rfl
  | @claim i cutoff worker queue j hpost hj hpending claimant t =>
    have account := h.account j hj
    refine h.work hj rfl rfl (fun l _ => ?_) (account.claim hpending i claimant t) rfl ?_
      fun _ _ he => nomatch he
    · exact h.nobody_at hj (by rw [hpending]; exact nofun) l
    · exact ⟨_, mem_replaced hj rfl, rfl, rfl, account.attempts_claimed hpending i⟩
  | @call i r j hpost hj =>
    obtain ⟨j', hj', hid, hrunning, hattempts⟩ := h.held_at hpost
    obtain rfl : j' = j := h.eq_of_id hj' hj hid
    have hat : (d.post i).job? = some j'.id := by rw [hpost]; rfl
    have called : ((d.replace j').put i (.running r j') (some (.called i j'.id j'.attempt))).Sound := by
      refine h.work hj rfl rfl (fun l hl hl' => hl (h.alone l i _ hl' hat))
        ((h.account j' hj).call hattempts) rfl ?_ fun _ _ _ hmem => ?_
      · exact ⟨mem_replaced hj rfl, hrunning, Account.calls_called_all hattempts⟩
      · exact (h.account j' hj).uncancelled (by rw [hrunning]; exact nofun) hmem
    rwa [h.replace_self hj] at called
  | @conclude i r j k outcome hpost hk =>
    obtain ⟨hj, hrunning, hall⟩ := h.held_at hpost
    have hat : (d.post i).job? = some j.id := by rw [hpost]; rfl
    have left : Sound { d with post := Function.update d.post i (.sweeping r) } := h.leave i rfl
    have free (l : ι) : (Function.update d.post i (.sweeping r) l).job? ≠ some j.id := by
      by_cases hl : l = i
      · rw [hl, Function.update_self]
        exact nofun
      · rw [Function.update_of_ne hl]
        exact fun hl' => hl (h.alone l i _ hl' hat)
    have replaced := left.replace hj hk.id free ((h.account j hj).conclude hrunning hall hk)
    by_cases hout : outcome = .rescheduled
    · rw [if_pos hout]
      refine replaced.note (fun _ => rfl) (fun _ => rfl) (fun id hid => ?_) fun _ _ he => nomatch he
      exact ⟨k, mem_replaced hj hk.id, hk.id.trans (Option.some.inj hid)⟩
    · rw [if_neg hout, put, Option.toList, List.append_nil]
      exact replaced
  | @cancel j hj hcancelled =>
    refine h.note (fun _ => rfl) (fun _ => rfl) (fun id hid => ⟨j, hj, Option.some.inj hid⟩) ?_
    intro r hr he
    have hid : j.id = r.id := Deed.cancelled.inj he
    exact h.eq_of_id hj hr hid ▸ hcancelled

end Sound

/-! ## Jobs that are over -/

section Over
variable [DecidableEq ι]

/-- Nothing more happens to a job that is over, and its handler is not called any more. -/
theorem Step.over (hstep : Step d d') (h : d.Sound) {j : Job} (hj : j ∈ d.jobs)
    (hover : j.status.isOver = true) : j ∈ d'.jobs ∧ calls d'.log j.id = calls d.log j.id := by
  have unlike {r : Job} (hr : r ∈ d.jobs) (hnot : r.status.isOver ≠ true) : j.id ≠ r.id := fun hid =>
    hnot (h.eq_of_id hj hr hid ▸ hover)
  have running {r : Job} (hrunning : r.status = .running) : r.status.isOver ≠ true := by
    rw [hrunning]
    decide
  have quiet (news : Option (Deed ι)) (hnews : ∀ e ∈ news.toList, e.call? j.id = none) :
      calls (d.log ++ news.toList) j.id = calls d.log j.id := by
    rw [calls_append, calls_none hnews, List.append_nil]
  cases hstep with
  | rest hrest =>
    refine ⟨hrest.mem_of_status hj fun hpending => ?_, rfl⟩
    rw [hpending] at hover
    cases hover
  | list i => exact ⟨hj, quiet (some (.listed i)) (by simp [Deed.call?])⟩
  | stop => exact ⟨hj, quiet none fun _ he => absurd he List.not_mem_nil⟩
  | skip => exact ⟨hj, quiet none fun _ he => absurd he List.not_mem_nil⟩
  | @claim i cutoff worker queue r _ hr hpending =>
    have hne := unlike hr (by rw [hpending]; decide)
    refine ⟨Sound.mem_replace_of_ne hj hne, quiet (some _) ?_⟩
    simp [Deed.call?]
  | @call i round r hpost hr =>
    obtain ⟨r', hr', hid, hrunning, -⟩ := h.held_at hpost
    have hne : j.id ≠ r.id := hid ▸ unlike hr' (running hrunning)
    refine ⟨hj, quiet (some _) ?_⟩
    simpa [Deed.call?] using hne.symm
  | @conclude i round r k outcome hpost hk =>
    obtain ⟨hr, hrunning, -⟩ := h.held_at hpost
    have hne := unlike hr (running hrunning)
    refine ⟨Sound.mem_replace_of_ne hj fun hid => hne (hid.trans hk.id), ?_⟩
    refine quiet (if outcome = .rescheduled then some (.postponed i r.id) else none) fun e he => ?_
    split at he
    · rw [List.mem_singleton.mp he]
      rfl
    · cases he
  | cancel => exact ⟨hj, quiet (some (.cancelled _)) (by simp [Deed.call?])⟩

/-! ## What happens in the end -/

theorem Sound.steps (h : d.Sound) (hsteps : Relation.ReflTransGen Step d d') : d'.Sound := by
  induction hsteps with
  | refl => exact h
  | tail _ hstep ih => exact ih.step hstep

theorem Sound.over (h : d.Sound) (hsteps : Relation.ReflTransGen Step d d') {j : Job}
    (hj : j ∈ d.jobs) (hover : j.status.isOver = true) :
    j ∈ d'.jobs ∧ calls d'.log j.id = calls d.log j.id := by
  induction hsteps with
  | refl => exact ⟨hj, rfl⟩
  | tail hsteps hstep ih =>
    have next := hstep.over (h.steps hsteps) ih.1 hover
    exact ⟨next.1, next.2.trans ih.2⟩

end Over

end Desk

end RecordFlow
