import RecordFlow.Proofs.Job.Pool

/-! # Jobs that are put off

A worker reads once what is due, and claims a job later whatever has become of its time. So a job may
be claimed before it is due again, but only by a worker whose list is older than the failure: one that
nobody got in the way of claims nothing that is not due.
-/
namespace RecordFlow
open Calendar
variable {ι : Type} [DecidableEq ι]

def Post.round? : Post → Option Round
  | .idle => none
  | .sweeping r => some r
  | .claimed r _ => some r
  | .running r _ => some r

def Post.sweep? : Post → Option Round
  | .sweeping r => some r
  | _ => none

theorem Post.eq_sweeping {post : Post} {r : Round} (h : post.sweep? = some r) :
    post = .sweeping r := by
  cases post with
  | sweeping s => exact congrArg _ (Option.some.inj h)
  | _ => cases h

def Deed.lists (i : ι) : Deed ι → Bool
  | listed k => k = i
  | _ => false

theorem Deed.lists_of_some {i : ι} {e : Deed ι} (h : e.lists i = false) (e' : Deed ι)
    (he : some e = some e') : e'.lists i = false :=
  Option.some.inj he ▸ h

def since (i : ι) (log : List (Deed ι)) : List (Deed ι) :=
  (log.reverse.takeWhile fun e => !e.lists i).reverse

theorem since_append {i : ι} {e : Deed ι} (he : e.lists i = false) (log : List (Deed ι)) :
    since i (log ++ [e]) = since i log ++ [e] := by
  rw [since, List.reverse_append, List.reverse_singleton, List.singleton_append,
    List.takeWhile_cons_of_pos (by rw [he]; rfl), List.reverse_cons, since]

namespace Desk
variable {d d' : Desk ι} {i k : ι} {r : Round}

/-- Whether another worker has put a job off since a worker has last listed what is due. -/
def PutOff (d : Desk ι) (i : ι) (job : Uuid) : Prop :=
  ∃ k, k ≠ i ∧ .postponed k job ∈ since i d.log

/-- What a worker has still to go through was due when it was listed, unless it was put off since. -/
structure Backs (d : Desk ι) (i : ι) (r : Round) : Prop where
  distinct : r.queue.Nodup
  due : ∀ id ∈ r.queue, ∃ j ∈ d.jobs, j.id = id ∧ (j.runAt ≤ r.cutoff ∨ d.PutOff i id)

/-- All lists of workers are backed, and the job that a worker is at is not on its list any more. -/
def Backed (d : Desk ι) : Prop :=
  ∀ i r, (d.post i).round? = some r →
    d.Backs i r ∧ ∀ id, (d.post i).job? = some id → id ∉ r.queue

/-- A list is backed still if its jobs are there and due as they were, or put off by somebody else. -/
theorem Backs.mono (h : d.Backs i r)
    (hjobs : ∀ j ∈ d.jobs, j.id ∈ r.queue →
      ∃ j' ∈ d'.jobs, j'.id = j.id ∧ (j'.runAt = j.runAt ∨ d'.PutOff i j.id))
    (hlog : ∀ e ∈ since i d.log, e ∈ since i d'.log) : d'.Backs i r where
  distinct := h.distinct
  due id hid := by
    obtain ⟨j, hj, rfl, hdue⟩ := h.due id hid
    obtain ⟨j', hj', hid', hsame⟩ := hjobs j hj hid
    refine ⟨j', hj', hid', ?_⟩
    rcases hdue with hdue | ⟨k, hk, hmem⟩
    · exact hsame.imp_left fun heq => by rwa [heq]
    · exact .inr ⟨k, hk, hlog _ hmem⟩

theorem Backs.tail {cutoff : Instant} {worker : Option String} {id : Uuid} {queue : List Uuid}
    (h : d.Backs i ⟨cutoff, worker, id :: queue⟩) : d.Backs i ⟨cutoff, worker, queue⟩ where
  distinct := (List.nodup_cons.mp h.distinct).2
  due id hid := h.due id (List.mem_cons_of_mem _ hid)

/-- What is appended to the log takes nothing away unless the worker lists anew. -/
theorem mem_since {log : List (Deed ι)} (news : Option (Deed ι))
    (hnews : ∀ e, news = some e → e.lists i = false) :
    ∀ e ∈ since i log, e ∈ since i (log ++ news.toList) := by
  intro e he
  cases news with
  | none => rwa [Option.toList, List.append_nil]
  | some e' =>
    rw [Option.toList, since_append (hnews e' rfl)]
    exact List.mem_append_left _ he

/-- A worker goes on to another post, and neither its own list nor those of others suffer. -/
theorem Backed.put (h : d.Backed) {post : Post} {news : Option (Deed ι)} {jobs : List Job}
    (hself : ∀ r, post.round? = some r →
      Backs ⟨jobs, Function.update d.post i post, d.log ++ news.toList⟩ i r
        ∧ ∀ id, post.job? = some id → id ∉ r.queue)
    (hjobs : ∀ l, l ≠ i → ∀ j ∈ d.jobs, ∃ j' ∈ jobs, j'.id = j.id ∧ (j'.runAt = j.runAt
      ∨ PutOff ⟨jobs, Function.update d.post i post, d.log ++ news.toList⟩ l j.id))
    (hnews : ∀ l, l ≠ i → ∀ e, news = some e → e.lists l = false) :
    Backed ⟨jobs, Function.update d.post i post, d.log ++ news.toList⟩ := by
  refine (Function.forall_update_iff d.post fun l post => ∀ r, post.round? = some r → Backs _ l r
    ∧ ∀ id, post.job? = some id → id ∉ r.queue).mpr ⟨hself, fun l hl r hr => ?_⟩
  obtain ⟨hbacks, hjob⟩ := h l r hr
  exact ⟨hbacks.mono (fun j hj _ => hjobs l hl j hj) (mem_since news (hnews l hl)), hjob⟩

omit [DecidableEq ι] in
theorem Sound.replaced (hd : d.Sound) {j k r : Job} (hj : j ∈ d.jobs) (hid : k.id = j.id)
    (hr : r ∈ d.jobs) : ∃ r' ∈ (d.replace k).jobs, r'.id = r.id ∧ (r' = r ∨ r = j ∧ r' = k) := by
  by_cases hrid : r.id = j.id
  · exact ⟨k, mem_replaced hj hid, hid.trans hrid.symm, .inr ⟨hd.eq_of_id hr hj hrid, rfl⟩⟩
  · exact ⟨r, mem_replace_of_ne hr fun h => hrid (h.trans hid), rfl, .inl rfl⟩

/-- A job that was put off by a worker was so for all others. -/
theorem putOff_postponed {l : ι} (hl : l ≠ i) {jobs : List Job} {post : ι → Post}
    {log : List (Deed ι)} (job : Uuid) : PutOff ⟨jobs, post, log ++ [.postponed i job]⟩ l job := by
  refine ⟨i, hl.symm, ?_⟩
  rw [since_append rfl]
  exact List.mem_append_right _ List.mem_cons_self

/-- Whatever may happen, lists stay backed. -/
theorem Backed.step (h : d.Backed) (hd : d.Sound) (hstep : Step d d') : d'.Backed := by
  have same (j : Job) (hj : j ∈ d.jobs) {log : List (Deed ι)} {post : ι → Post} {l : ι} :
      ∃ j' ∈ d.jobs, j'.id = j.id ∧ (j'.runAt = j.runAt ∨ PutOff ⟨d.jobs, post, log⟩ l j.id) :=
    ⟨j, hj, rfl, .inl rfl⟩
  cases hstep with
  | rest hrest =>
    intro i r hr
    obtain ⟨hbacks, hjob⟩ := h i r hr
    refine ⟨hbacks.mono (fun j hj _ => ?_) fun _ he => he, hjob⟩
    obtain ⟨k, hk, hjk⟩ := hrest.kept j hj
    exact ⟨k, hk, hjk.id, .inl hjk.runAt⟩
  | @list cutoff ids i worker hdistinct hdue =>
    refine h.put (fun r hr => ⟨?_, nofun⟩) (fun _ _ j hj => same j hj) fun l hl e he => ?_
    · cases hr
      refine ⟨hdistinct, fun id hid => ?_⟩
      obtain ⟨j, hj, hjid, hdue⟩ := hdue id hid
      exact ⟨j, hj, hjid, .inl hdue⟩
    · cases he
      exact decide_eq_false hl.symm
  | stop i => exact h.put nofun (fun _ _ j hj => same j hj) fun _ _ _ he => nomatch he
  | @skip i cutoff worker id queue hpost =>
    refine h.put (fun r hr => ⟨?_, nofun⟩) (fun _ _ j hj => same j hj) fun _ _ _ he => nomatch he
    cases hr
    have hbacks := (h i _ (by rw [hpost]; rfl)).1.tail
    exact hbacks.mono (fun j hj _ => same j hj) (mem_since none fun _ he => nomatch he)
  | @claim i cutoff worker queue j hpost hj _ claimant t =>
    have hbacks := (h i _ (by rw [hpost]; rfl)).1
    have kept (l : ι) {post : ι → Post} {log : List (Deed ι)} {r : Job} (hr : r ∈ d.jobs) :
        ∃ r' ∈ (d.replace (j.claim claimant t)).jobs, r'.id = r.id ∧ (r'.runAt = r.runAt
          ∨ PutOff ⟨(d.replace (j.claim claimant t)).jobs, post, log⟩ l r.id) := by
      obtain ⟨r', hr', hid, rfl | ⟨rfl, rfl⟩⟩ := hd.replaced hj (k := j.claim claimant t) rfl hr
      · exact ⟨r', hr', hid, .inl rfl⟩
      · exact ⟨_, hr', hid, .inl rfl⟩
    refine h.put (fun r hr => ?_) (fun l _ r hr => kept l hr) fun l _ => Deed.lists_of_some rfl
    cases hr
    refine ⟨hbacks.tail.mono (fun r hr _ => kept i hr) (mem_since _ (Deed.lists_of_some rfl)),
      fun id hat => ?_⟩
    cases hat
    exact (List.nodup_cons.mp hbacks.distinct).1
  | @call i r j hpost hj =>
    obtain ⟨hbacks, hjob⟩ := h i r (by rw [hpost]; rfl)
    refine h.put (fun r' hr => ?_) (fun _ _ j hj => same j hj) fun l _ => Deed.lists_of_some rfl
    cases hr
    refine ⟨hbacks.mono (fun j hj _ => same j hj) (mem_since _ (Deed.lists_of_some rfl)),
      fun id hat => ?_⟩
    cases hat
    exact hjob _ (by rw [hpost]; rfl)
  | @conclude i r j k outcome hpost hk =>
    obtain ⟨hbacks, hjob⟩ := h i r (by rw [hpost]; rfl)
    obtain ⟨hj, -⟩ := hd.held_at hpost
    have hnot := hjob j.id (by rw [hpost]; rfl)
    have quiet (l : ι) (e : Deed ι)
        (he : (if outcome = .rescheduled then some (Deed.postponed i j.id) else none) = some e) :
        e.lists l = false := by
      split at he
      · cases he
        rfl
      · cases he
    refine h.put (fun r' hr => ⟨?_, nofun⟩) (fun l hl s hs => ?_) fun l _ => quiet l
    · cases hr
      refine hbacks.mono (fun s hs hqueue => ?_) (mem_since _ (quiet i))
      obtain ⟨s', hs', hid, rfl | ⟨rfl, -⟩⟩ := hd.replaced hj hk.id hs
      · exact ⟨s', hs', hid, .inl rfl⟩
      · exact absurd hqueue hnot
    · obtain ⟨s', hs', hid, rfl | ⟨rfl, rfl⟩⟩ := hd.replaced hj hk.id hs
      · exact ⟨s', hs', hid, .inl rfl⟩
      · refine ⟨s', hs', hid, ?_⟩
        cases hk with
        | complete => exact .inl rfl
        | postpone => exact .inr (putOff_postponed hl _)
        | fail => exact .inl rfl
  | @cancel j hj hcancelled =>
    intro i r hr
    obtain ⟨hbacks, hjob⟩ := h i r hr
    exact ⟨hbacks.mono (fun j hj _ => same j hj)
      (mem_since (some (.cancelled j.id)) (Deed.lists_of_some rfl)), hjob⟩

theorem Backed.steps (h : d.Backed) (hd : d.Sound) (hsteps : Relation.ReflTransGen Step d d') :
    d'.Backed := by
  induction hsteps with
  | refl => exact h
  | tail hsteps hstep ih => exact ih.step (hd.steps hsteps) hstep

end Desk

/-! ## Claims before the time -/

namespace Pool
variable {w : World}

theorem backed_opened (hw : w.IsNew) (moves : List (Move ι)) :
    ((opened w : Pool ι).afterAll moves).desk.Backed := by
  have idle : (opened w : Pool ι).desk.Backed := nofun
  exact idle.steps (opened_sound hw) (goes_opened hw moves).steps

/-- A job that is next on the list of a worker is due at the cutoff of its sweep, unless another worker
has put the job off since the list was read. -/
theorem afterAll_claims_due (hw : w.IsNew) (moves : List (Move ι)) {i : ι} {cutoff : Instant}
    {worker : Option String} {queue : List Uuid} {j : Job}
    (hj : j ∈ ((opened w).afterAll moves).world.tables.jobs)
    (hpost : ((opened w).afterAll moves).post i = .sweeping ⟨cutoff, worker, j.id :: queue⟩) :
    j.runAt ≤ cutoff ∨ ∃ k, k ≠ i ∧ .postponed k j.id ∈ since i ((opened w).afterAll moves).log := by
  have backed := backed_opened hw moves i ⟨cutoff, worker, j.id :: queue⟩ (congrArg Post.round? hpost)
  obtain ⟨j', hj', hid, hdue⟩ := backed.1.due j.id List.mem_cons_self
  obtain rfl : j' = j := (sound_opened hw moves).eq_of_id hj' hj hid
  exact hdue

def overtaken : List (Move Bool) :=
  [.schedule (hopeless 3), .list false ⟨0⟩ none none, .list true ⟨0⟩ none none, .claim false]
  ++ attempt false

set_option maxRecDepth 10000 in
theorem overtaken_state :
    let p := (opened World.fresh).afterAll overtaken
    p.world.tables.jobs.map (fun j => (j.id, j.status, j.runAt))
      = [(TableName.job.rowId 1, .pending, ⟨120000000⟩)]
    ∧ (p.post true).sweep? = some ⟨⟨0⟩, none, [TableName.job.rowId 1]⟩
    ∧ ((p.claim true).post true).job? = some (TableName.job.rowId 1) := by
  decide +kernel

/-- The worker that was overtaken is about to claim the job, which is not due. -/
theorem overtaken_late : ∃ j ∈ ((opened World.fresh).afterAll overtaken).world.tables.jobs,
    j.status = .pending ∧ (⟨0⟩ : Instant) < j.runAt
      ∧ ((opened World.fresh).afterAll overtaken).post true = .sweeping ⟨⟨0⟩, none, [j.id]⟩
      ∧ ((((opened World.fresh).afterAll overtaken).claim true).post true).job? = some j.id := by
  obtain ⟨hjobs, hpost, hclaims⟩ := overtaken_state
  obtain ⟨j, hj, heq⟩ := List.mem_map.mp (hjobs ▸ List.mem_singleton_self _)
  obtain ⟨hid, heq⟩ := Prod.mk.inj heq
  obtain ⟨hpending, hrunAt⟩ := Prod.mk.inj heq
  refine ⟨j, hj, hpending, ?_, ?_, ?_⟩
  · rw [hrunAt]
    decide
  · rw [hid]
    exact Post.eq_sweeping hpost
  · rw [hid]
    exact hclaims

theorem afterAll_claims_due_overtaken : World.fresh.IsNew
    ∧ ∃ j ∈ ((opened World.fresh).afterAll overtaken).world.tables.jobs, (⟨0⟩ : Instant) < j.runAt
      ∧ ((opened World.fresh).afterAll overtaken).post true = .sweeping ⟨⟨0⟩, none, [j.id]⟩
      ∧ ∃ k, k ≠ true
        ∧ .postponed k j.id ∈ since true ((opened World.fresh).afterAll overtaken).log := by
  obtain ⟨j, hj, -, hlate, hpost, -⟩ := overtaken_late
  refine ⟨World.fresh_isNew, j, hj, hlate, hpost, ?_⟩
  exact (afterAll_claims_due World.fresh_isNew overtaken hj hpost).resolve_left (Int.not_le.mpr hlate)

/-- A worker may claim a job before it is due at the cutoff of its sweep. -/
theorem afterAll_claims_early : ¬ ∀ w : World, w.IsNew → ∀ (moves : List (Move Bool)) (i : Bool)
    (cutoff : Instant) (worker : Option String) (queue : List Uuid),
    ∀ j ∈ ((opened w).afterAll moves).world.tables.jobs,
      ((opened w).afterAll moves).post i = .sweeping ⟨cutoff, worker, j.id :: queue⟩ →
      j.status = .pending →
      ((((opened w).afterAll moves).claim i).post i).job? = some j.id → j.runAt ≤ cutoff := by
  intro h
  obtain ⟨j, hj, hpending, hlate, hpost, hclaims⟩ := overtaken_late
  have hdue := h _ World.fresh_isNew overtaken true _ _ _ j hj hpost hpending hclaims
  exact absurd hdue (Int.not_le.mpr hlate)

end Pool

end RecordFlow
