import RecordFlow.Proofs.Approval.Upheld
import RecordFlow.Proofs.Cadence.Paced

/-! # Jobs that nobody claims

As long as nobody claims a job it stays as it is, unless it is cancelled; jobs that nobody has tried
yet may be added. All jobs rest like this while anything is asked for but a claim, and while the
handler of a job is at work: claims and the ends of attempts are the only other things that happen to
jobs.
-/
namespace RecordFlow
open RecordFlow.Flow Calendar
variable {w v u : World}

namespace Job
variable {j k l : Job} {jobs jobs' jobs'' : List Job}

theorem isPending_iff : j.isPending = true ↔ j.status = .pending := decide_eq_true_iff

/-- What becomes of a job that nobody claims. -/
inductive Rests : Job → Job → Prop
  | stay (j : Job) : Rests j j
  | cancel {j : Job} (h : j.status = .pending) (t : Instant) : Rests j (j.cancel t)

namespace Rests

theorem trans (h : j.Rests k) (h' : k.Rests l) : j.Rests l := by
  cases h with
  | stay => exact h'
  | cancel h t =>
    cases h' with
    | stay => exact .cancel h t
    | cancel h' => cases h'

theorem id (h : j.Rests k) : k.id = j.id := by cases h <;> rfl

theorem attempt (h : j.Rests k) : k.attempt = j.attempt := by cases h <;> rfl

theorem runAt (h : j.Rests k) : k.runAt = j.runAt := by cases h <;> rfl

/-- Only a job that is pending can be cancelled. -/
theorem eq_of_status (h : j.Rests k) (hstatus : j.status ≠ .pending) : k = j := by
  cases h with
  | stay => rfl
  | cancel hpending => exact absurd hpending hstatus

end Rests

structure Untried (j : Job) : Prop where
  attempt : j.attempt = 0
  status : j.status = .pending ∨ j.status = .cancelled

theorem Untried.rests (hj : j.Untried) (h : j.Rests k) : k.Untried := by
  refine ⟨h.attempt.trans hj.attempt, ?_⟩
  cases h with
  | stay => exact hj.status
  | cancel => exact .inr rfl

structure AllRest (jobs jobs' : List Job) : Prop where
  kept : ∀ j ∈ jobs, ∃ k ∈ jobs', j.Rests k
  origin : ∀ k ∈ jobs', (∃ j ∈ jobs, j.Rests k) ∨ k.Untried ∧ ∀ j ∈ jobs, j.id ≠ k.id

namespace AllRest

theorem change {f : Job → Job} (h : ∀ j ∈ jobs, j.Rests (f j)) : AllRest jobs (jobs.map f) where
  kept j hj := ⟨f j, List.mem_map_of_mem hj, h j hj⟩
  origin k hk := by
    obtain ⟨j, hj, rfl⟩ := List.mem_map.mp hk
    exact .inl ⟨j, hj, h j hj⟩

theorem refl (jobs : List Job) : AllRest jobs jobs where
  kept j hj := ⟨j, hj, .stay j⟩
  origin j hj := .inl ⟨j, hj, .stay j⟩

theorem add (hj : j.Untried) (hnew : ∀ k ∈ jobs, k.id ≠ j.id) : AllRest jobs (jobs ++ [j]) where
  kept k hk := ⟨k, List.mem_append_left _ hk, .stay k⟩
  origin k hk := by
    rcases List.mem_append.mp hk with hk | hk
    · exact .inl ⟨k, hk, .stay k⟩
    · rw [List.mem_singleton.mp hk]
      exact .inr ⟨hj, hnew⟩

theorem trans (h : AllRest jobs jobs') (h' : AllRest jobs' jobs'') : AllRest jobs jobs'' where
  kept j hj := by
    obtain ⟨k, hk, hjk⟩ := h.kept j hj
    obtain ⟨l, hl, hkl⟩ := h'.kept k hk
    exact ⟨l, hl, hjk.trans hkl⟩
  origin l hl := by
    rcases h'.origin l hl with ⟨k, hk, hkl⟩ | ⟨hl, hnew⟩
    · rcases h.origin k hk with ⟨j, hj, hjk⟩ | ⟨hk, hnew⟩
      · exact .inl ⟨j, hj, hjk.trans hkl⟩
      · exact .inr ⟨hk.rests hkl, fun j hj => hkl.id ▸ hnew j hj⟩
    · refine .inr ⟨hl, fun j hj => ?_⟩
      obtain ⟨k, hk, hjk⟩ := h.kept j hj
      exact hjk.id ▸ hnew k hk

theorem mem_of_status (h : AllRest jobs jobs') (hj : j ∈ jobs) (hstatus : j.status ≠ .pending) :
    j ∈ jobs' := by
  obtain ⟨k, hk, hjk⟩ := h.kept j hj
  exact hjk.eq_of_status hstatus ▸ hk

end AllRest

end Job

/-! ## Worlds in which jobs rest -/

namespace World

/-- Jobs have identifiers of their own, and those that are stored have rested since they were saved. -/
structure Queued (w : World) : Prop where
  numbered : Numbered .job (w.nextNumber .job) (w.tables.jobs.map Job.id)
  saved : Numbered .job (w.nextNumber .job) (w.saved.jobs.map Job.id)
  rested : Job.AllRest w.saved.jobs w.tables.jobs

structure Rested (w v : World) : Prop where
  queued : v.Queued
  rested : Job.AllRest w.saved.jobs v.saved.jobs

end World

def JobsRest (w v : World) : Prop := w.Queued → w.Rested v

abbrev Resting {α : Type} (part : Flow α) : Prop := Upholds JobsRest part

namespace World

theorem Queued.refl (hw : w.Queued) : w.Rested w := ⟨hw, .refl _⟩

theorem Rested.trans (h : w.Rested v) (h' : v.Rested u) : w.Rested u :=
  ⟨h'.queued, h.rested.trans h'.rested⟩

/-- Nothing is saved, and the jobs that are stored rest. -/
theorem Queued.rest (hw : w.Queued) (hsaved : v.saved = w.saved)
    (hrested : Job.AllRest w.tables.jobs v.tables.jobs)
    (hnumbers : w.nextNumber .job ≤ v.nextNumber .job)
    (hnumbered : Numbered .job (v.nextNumber .job) (v.tables.jobs.map Job.id)) : w.Rested v := by
  refine ⟨⟨hnumbered, ?_, ?_⟩, ?_⟩
  · rw [hsaved]
    exact hw.saved.mono hnumbers
  · rw [hsaved]
    exact hw.rested.trans hrested
  · rw [hsaved]
    exact .refl _

theorem committed_of_even (h : w.saved = w.tables) : w.committed = w := by
  cases w
  cases h
  rfl

theorem Queued.committed (hw : w.Queued) : w.Rested w.committed :=
  ⟨⟨hw.numbered, hw.numbered, .refl _⟩, hw.rested⟩

theorem Queued.rolledBack (hw : w.Queued) : w.Rested w.rolledBack :=
  ⟨⟨hw.saved, hw.saved, .refl _⟩, .refl _⟩

/-- Only jobs and their numbers matter. -/
theorem Queued.of_jobs (hw : w.Queued) (hsaved : v.saved.jobs = w.saved.jobs)
    (htables : v.tables.jobs = w.tables.jobs) (hnumbers : w.nextNumber .job ≤ v.nextNumber .job) :
    w.Rested v := by
  refine ⟨⟨?_, ?_, ?_⟩, ?_⟩
  · rw [htables]
    exact hw.numbered.mono hnumbers
  · rw [hsaved]
    exact hw.saved.mono hnumbers
  · rw [hsaved, htables]
    exact hw.rested
  · rw [hsaved]
    exact .refl _

end World

/-! ## What lets jobs rest -/

instance : IsPreorder World JobsRest where
  refl _ hw := hw.refl
  trans _ _ _ h h' hw := (h hw).trans (h' (h hw).queued)

instance : Undoes World.rolledBack JobsRest where
  undone _ hw := hw.rolledBack

theorem jobsRest_of_tables (htables : v.tables = w.tables) (hsaved : v.saved = w.saved)
    (hnumbers : v.numbers = w.numbers) : JobsRest w v := fun hw =>
  hw.of_jobs (by rw [hsaved]) (by rw [htables]) (Nat.le_of_eq (World.nextNumber_congr hnumbers _).symm)

instance : Lenient JobsRest where
  numbered w t hw := hw.of_jobs rfl rfl (w.nextNumber_le_useNumber t .job)
  unstored _ _ h _ := jobsRest_of_tables h.tables h.saved h.numbers

/-- Any other table may be written to. -/
theorem indifferent_of_jobs {ρ : Type} [Stored ρ]
    (h : ∀ (rows : List ρ) (t : Tables), (Stored.setRows rows t).jobs = t.jobs) :
    Indifferent JobsRest ρ :=
  ⟨fun rows w hw => hw.of_jobs rfl (h rows w.tables) (Nat.le_refl _)⟩

instance : Indifferent JobsRest Enrollment := indifferent_of_jobs fun _ _ => rfl

theorem Job.Added.rested {kind : String} {payload : Value} {j : Job}
    (h : Job.Added kind payload w j v) (hw : w.Queued) : w.Rested v := by
  have hnew : ∀ k ∈ w.tables.jobs, k.id ≠ j.id := h.id ▸ hw.numbered.free
  have numbered := (hw.numbered.append h.id).mono (Nat.le_of_eq (w.nextNumber_used .job).symm)
  rw [h.world]
  exact hw.rest rfl (.add ⟨h.attempt, .inl h.status⟩ hnew) (w.nextNumber_le_useNumber .job .job)
    numbered

instance : Schedules JobsRest where
  schedule d := by
    have added : Incidental JobsRest (Job.add d) := fun w => by
      refine (Job.add_ends d w).mono (fun _ _ h => h.rested) fun e v h => ⟨h.2, ?_⟩
      rw [h.1]
      exact Lenient.numbered w .job
    unfold Job.schedule
    split
    · refine .ite added (.bind (.all Job) fun jobs => ?_)
      split
      · exact .pure _
      · exact added
    · exact added

instance : Cancels JobsRest where
  cancel id := by
    have cancelled (t : Instant) : Incidental JobsRest
        (updateWhere (fun j : Job => j.id = id && j.isPending) (Job.cancel t)) := fun w => by
      refine .of_ok (updateWhere_eq _ _ w) fun hw => ?_
      have rests : ∀ j ∈ w.tables.jobs,
          j.Rests (if (j.id = id && j.isPending) = true then j.cancel t else j) := fun j _ => by
        split
        · next h => exact .cancel (Job.isPending_iff.mp (Bool.and_eq_true_iff.mp h).2) t
        · exact .stay j
      exact hw.rest rfl (.change rests) (Nat.le_refl _) (hw.numbered.map fun j hj => (rests j hj).id)
    exact .bind .now fun t => .bind (cancelled t) fun _ => .pure _

instance : Timeless JobsRest where
  adjusts _ _ _ _ _ _ := jobsRest_of_tables rfl rfl rfl

theorem jobsRest_committed (w : World) : JobsRest w w.committed := fun hw => hw.committed

instance : Tolerant JobsRest where
  records := indifferent_of_jobs fun _ _ => rfl
  children := indifferent_of_jobs fun _ _ => rfl
  cooldowns := indifferent_of_jobs fun _ _ => rfl
  rules := indifferent_of_jobs fun _ _ => rfl
  messages := indifferent_of_jobs fun _ _ => rfl
  cadences := indifferent_of_jobs fun _ _ => rfl
  workflows := indifferent_of_jobs fun _ _ => rfl
  outside _ _ h := jobsRest_of_tables h.tables h.saved h.numbers
  amongst := amongst_of_tables fun _ _ => jobsRest_of_tables
  commits := jobsRest_committed
  undone _ hw := hw.rolledBack
  opens c := by
    have : Indifferent JobsRest Run := indifferent_of_jobs fun _ _ => rfl
    exact .bind (.looks .ambient) fun _ => .bind (.of_keeps (incidental_insertIf _ _)) fun _ =>
      .bind (.modify jobsRest_committed) fun _ => .pure _
  savesRun w id change _ := by
    have written : JobsRest w (w.setRows (Run.changeRow id change w.tables.runs)) := fun hw =>
      hw.of_jobs rfl rfl (Nat.le_refl _)
    exact trans_of JobsRest written (jobsRest_committed _)
  enrolls cadence record by_ := .of_keeps (incidental_enroll cadence record by_)
  unenrolls record cadence reason actor :=
    .of_keeps (incidental_unenroll record cadence reason actor)

instance : Aloof JobsRest where
  approvals := indifferent_of_jobs fun _ _ => rfl
  entries := indifferent_of_jobs fun _ _ => rfl
  stageChanges := indifferent_of_jobs fun _ _ => rfl
  blueprints := indifferent_of_jobs fun _ _ => rfl
  processes := indifferent_of_jobs fun _ _ => rfl

end RecordFlow
