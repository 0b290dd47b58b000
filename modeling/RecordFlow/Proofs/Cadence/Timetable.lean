import Mathlib.Data.List.Nodup
import Mathlib.Logic.Relation
import RecordFlow.Cadence.Enroll
import RecordFlow.Job.Schedule
import RecordFlow.Proofs.Schema.Identifier
import RecordFlow.Proofs.Store.Numbered

/-! # The timetable of cadences

Enrollments and the jobs that they wait for change by turns of four kinds. In a sound timetable a
record is enrolled in a cadence once at a time, what is ended waits for nothing, and every live
enrollment has a job of its own. Every turn keeps a timetable sound.
-/
namespace RecordFlow
open Calendar

/-! ## How enrollments go on -/

inductive EnrollmentStatus.Changes : EnrollmentStatus → EnrollmentStatus → Prop
  | pause : Changes .active .paused
  | resume : Changes .paused .active
  | complete : Changes .active .completed
  | completePaused : Changes .paused .completed
  | stop : Changes .active .stopped
  | stopPaused : Changes .paused .stopped

theorem EnrollmentStatus.eq_of_isLive {s : EnrollmentStatus} (h : s.isLive = true) :
    s = .active ∨ s = .paused := by
  cases s with
  | active => exact .inl rfl
  | paused => exact .inr rfl
  | completed | stopped | other => cases h

namespace Enrollment

def ticket (e : Enrollment) : Value :=
  .obj [("enrollment_id", .uuid e.id), ("step_index", .int e.step)]

inductive Goes (e : Enrollment) : Enrollment → Prop
  | pause (h : e.status = .active) : Goes e { e with status := .paused }
  | resume (h : e.status = .paused) (job : Uuid) (due : Instant) :
      Goes e { e with status := .active, pendingJob := some job, nextStepDueAt := some due }
  | advance (h : e.status = .active) (job : Uuid) (due : Instant) :
      Goes e { e with step := e.step + 1, pendingJob := some job, nextStepDueAt := some due }
  | complete (h : e.status.isLive = true) (t : Instant) : Goes e (e.complete t)
  | completeLast (h : e.status = .active) (t : Instant) :
      Goes e (Enrollment.complete { e with step := e.step + 1 } t)
  | stop (h : e.status.isLive = true) (reason : String) : Goes e (e.stop reason)

abbrev Course : Enrollment → Enrollment → Prop := Relation.ReflTransGen Goes

variable {e e' : Enrollment}

theorem Goes.live (h : e.Goes e') : e.status.isLive = true := by
  cases h with
  | pause h | resume h | advance h | completeLast h => rw [h]; rfl
  | complete h | stop h => exact h

theorem Goes.same (h : e.Goes e') :
    e'.id = e.id ∧ e'.cadence = e.cadence ∧ e'.record = e.record := by
  cases h <;> exact ⟨rfl, rfl, rfl⟩

theorem Goes.step_le (h : e.Goes e') : e.step ≤ e'.step := by
  cases h with
  | advance | completeLast => exact Int.le_add_one (Int.le_refl _)
  | pause | resume | complete | stop => exact Int.le_refl _

theorem Goes.status (h : e.Goes e') : e'.status = e.status ∨ e.status.Changes e'.status := by
  cases h with
  | pause h => exact .inr (h.symm ▸ .pause)
  | resume h => exact .inr (h.symm ▸ .resume)
  | advance => exact .inl rfl
  | complete h =>
    rcases EnrollmentStatus.eq_of_isLive h with h | h
    · exact .inr (h.symm ▸ .complete)
    · exact .inr (h.symm ▸ .completePaused)
  | completeLast h => exact .inr (h.symm ▸ .complete)
  | stop h =>
    rcases EnrollmentStatus.eq_of_isLive h with h | h
    · exact .inr (h.symm ▸ .stop)
    · exact .inr (h.symm ▸ .stopPaused)

/-- What it ends with waits for nothing. -/
theorem Goes.ended (h : e.Goes e') (hended : e'.status.isLive = false) :
    e'.pendingJob = none ∧ e'.nextStepDueAt = none := by
  cases h with
  | pause | resume => cases hended
  | advance h => simp only [h] at hended; cases hended
  | complete | completeLast | stop => exact ⟨rfl, rfl⟩

theorem Course.id (h : e.Course e') : e'.id = e.id := by
  induction h with
  | refl => rfl
  | tail _ hgoes ih => exact hgoes.same.1.trans ih

theorem Course.step_le (h : e.Course e') : e.step ≤ e'.step := by
  induction h with
  | refl => exact Int.le_refl _
  | tail _ hgoes ih => exact Int.le_trans ih hgoes.step_le

theorem Course.eq_of_ended (h : e.Course e') (hended : e.status.isLive = false) : e' = e := by
  induction h with
  | refl => rfl
  | tail _ hgoes ih =>
    have hlive := hgoes.live
    rw [ih, hended] at hlive
    cases hlive

theorem Course.status (h : e.Course e') :
    Relation.ReflTransGen EnrollmentStatus.Changes e.status e'.status := by
  induction h with
  | refl => exact .refl
  | tail _ hgoes ih =>
    rcases hgoes.status with hsame | hchanges
    · exact hsame.symm ▸ ih
    · exact ih.tail hchanges

structure Later (e e' : Enrollment) : Prop where
  id : e'.id = e.id
  course : e.Course e'
  step : e.step ≤ e'.step
  status : Relation.ReflTransGen EnrollmentStatus.Changes e.status e'.status
  ended : e.status.isLive = false → e' = e

theorem Course.later (h : e.Course e') : e.Later e' :=
  ⟨h.id, h, h.step_le, h.status, h.eq_of_ended⟩

theorem isLiveFor_eq_false {cadence record : Uuid} (h : e.isLiveFor cadence record = false)
    (hlive : e.status.isLive = true) : ¬ (e.cadence = cadence ∧ e.record = record) := by
  rintro ⟨rfl, rfl⟩
  simp [isLiveFor, hlive] at h

end Enrollment

/-! ## The jobs of steps -/

namespace Job

structure IsFor (j : Job) (e : Enrollment) : Prop where
  kind : j.kind = cadenceKind
  payload : j.payload = e.ticket

structure SameTask (j j' : Job) : Prop where
  id : j'.id = j.id
  kind : j'.kind = j.kind
  payload : j'.payload = j.payload

/-- A job that will still be carried out, unless its attempts are used up or it was cancelled by
hand. -/
inductive Serves (cancels : Uuid → Prop) (j : Job) : Prop
  | pending (h : j.status = .pending)
  | running (h : j.status = .running)
  | exhausted (h : j.status = .failed) (hattempts : j.maxAttempts ≤ j.attempt)
  | cancelled (h : j.status = .cancelled) (hcancels : cancels j.id)

variable {j j' : Job} {e e' : Enrollment}

theorem SameTask.refl (j : Job) : SameTask j j := ⟨rfl, rfl, rfl⟩

theorem SameTask.trans {j'' : Job} (h : SameTask j j') (h' : SameTask j' j'') : SameTask j j'' :=
  ⟨h'.id.trans h.id, h'.kind.trans h.kind, h'.payload.trans h.payload⟩

theorem SameTask.isFor (h : SameTask j j') (hfor : j.IsFor e) : j'.IsFor e :=
  ⟨h.kind.trans hfor.kind, h.payload.trans hfor.payload⟩

/-- A job is for one step of one enrollment. -/
theorem IsFor.unique (h : j.IsFor e) (h' : j.IsFor e') : e'.id = e.id ∧ e'.step = e.step := by
  have heq : e.ticket = e'.ticket := h.payload.symm.trans h'.payload
  simp only [Enrollment.ticket, Value.uuid, Value.obj.injEq, List.cons.injEq, Prod.mk.injEq,
    Value.str.injEq, Value.int.injEq, true_and, and_true] at heq
  exact ⟨(Uuid.text_injective heq.1).symm, heq.2.symm⟩

/-- Whoever reads what a job was told finds the enrollment that it is for, or none. -/
theorem IsFor.eq_of_read {id : Uuid} (h : j.IsFor e)
    (hread : (j.payload.demand "enrollment_id" >>= Value.identifier) = .ok id) : id = e.id := by
  have htold : j.payload.demand "enrollment_id" = .ok (.uuid e.id) := by
    rw [h.payload]
    rfl
  rw [htold] at hread
  have hid : (Uuid.read e.id.text).mapError Failure.identifier = .ok id := hread
  cases hr : Uuid.read e.id.text with
  | ok u =>
    rw [hr] at hid
    cases hid
    exact Uuid.eq_of_read_text hr
  | error cause =>
    rw [hr] at hid
    cases hid

end Job

/-! ## Timetables -/

structure Timetable where
  enrollments : List Enrollment
  jobs : List Job

def Tables.timetable (t : Tables) : Timetable := ⟨t.enrollments, t.jobs⟩

namespace Timetable

/-- An enrollment has its job, which serves it as long as it is active. -/
def Attends (cancels : Uuid → Prop) (t : Timetable) (e : Enrollment) : Prop :=
  ∃ j ∈ t.jobs, e.pendingJob = some j.id ∧ j.IsFor e ∧ (e.status = .active → j.Serves cancels)

def Idle (t : Timetable) (job : Uuid) : Prop :=
  ∀ e ∈ t.enrollments, e.status = .active → e.pendingJob ≠ some job

structure Sound (cancels : Uuid → Prop) (t : Timetable) : Prop where
  enrollments : (t.enrollments.map Enrollment.id).Nodup
  jobs : (t.jobs.map Job.id).Nodup
  single : ∀ e ∈ t.enrollments, ∀ e' ∈ t.enrollments, e.status.isLive = true →
    e'.status.isLive = true → e.cadence = e'.cadence → e.record = e'.record → e.id = e'.id
  ended : ∀ e ∈ t.enrollments, e.status.isLive = false →
    e.pendingJob = none ∧ e.nextStepDueAt = none
  attended : ∀ e ∈ t.enrollments, e.status.isLive = true → t.Attends cancels e

/-- A change to the enrollments and jobs; `cancels` tells which jobs are cancelled by hand. -/
inductive Turn (cancels : Uuid → Prop) (t : Timetable) : Timetable → Prop
  | schedule (j : Job) (hnew : ∀ k ∈ t.jobs, k.id ≠ j.id) :
      Turn cancels t { t with jobs := t.jobs ++ [j] }
  | enroll (e : Enrollment) (hnew : ∀ r ∈ t.enrollments, r.id ≠ e.id)
      (hactive : e.status = .active)
      (hsole : ∀ r ∈ t.enrollments, r.isLiveFor e.cadence e.record = false)
      (hattends : t.Attends cancels e) :
      Turn cancels t { t with enrollments := t.enrollments ++ [e] }
  | go (change : Enrollment → Enrollment)
      (hgo : ∀ e ∈ t.enrollments, change e = e ∨ e.Goes (change e)
        ∧ ((change e).status.isLive = true → t.Attends cancels (change e))) :
      Turn cancels t { t with enrollments := t.enrollments.map change }
  | work (change : Job → Job) (hsame : ∀ j ∈ t.jobs, j.SameTask (change j))
      (hwork : ∀ j ∈ t.jobs, change j = j ∨ (change j).Serves cancels ∨ t.Idle j.id) :
      Turn cancels t { t with jobs := t.jobs.map change }

abbrev Turns (cancels : Uuid → Prop) : Timetable → Timetable → Prop :=
  Relation.ReflTransGen (Turn cancels)

variable {cancels : Uuid → Prop} {t u : Timetable} {e e' : Enrollment} {j j' : Job}

theorem Attends.mono (h : t.Attends cancels e) (hjobs : ∀ j ∈ t.jobs, j ∈ u.jobs) :
    u.Attends cancels e := by
  obtain ⟨j, hj, hpending, hfor, hserves⟩ := h
  exact ⟨j, hjobs j hj, hpending, hfor, hserves⟩

/-! ## What every turn keeps -/

theorem Sound.schedule (h : t.Sound cancels) (hnew : ∀ k ∈ t.jobs, k.id ≠ j.id) :
    Sound cancels { t with jobs := t.jobs ++ [j] } where
  enrollments := h.enrollments
  jobs := nodup_append_new h.jobs hnew
  single := h.single
  ended := h.ended
  attended e he hlive :=
    (h.attended e he hlive).mono fun _ hk => List.mem_append_left _ hk

theorem Sound.enroll (h : t.Sound cancels) (hnew : ∀ r ∈ t.enrollments, r.id ≠ e.id)
    (hactive : e.status = .active)
    (hsole : ∀ r ∈ t.enrollments, r.isLiveFor e.cadence e.record = false)
    (hattends : t.Attends cancels e) :
    Sound cancels { t with enrollments := t.enrollments ++ [e] } where
  enrollments := nodup_append_new h.enrollments hnew
  jobs := h.jobs
  single := by
    have alone (r : Enrollment) (hr : r ∈ t.enrollments) (hlive : r.status.isLive = true)
        (hcadence : r.cadence = e.cadence) (hrecord : r.record = e.record) : False :=
      Enrollment.isLiveFor_eq_false (hsole r hr) hlive ⟨hcadence, hrecord⟩
    intro a ha b hb hlive hlive' hcadence hrecord
    rcases List.mem_append.mp ha with ha | ha <;> rcases List.mem_append.mp hb with hb | hb
    · exact h.single a ha b hb hlive hlive' hcadence hrecord
    · cases List.mem_singleton.mp hb
      exact (alone a ha hlive hcadence hrecord).elim
    · cases List.mem_singleton.mp ha
      exact (alone b hb hlive' hcadence.symm hrecord.symm).elim
    · rw [List.mem_singleton.mp ha, List.mem_singleton.mp hb]
  ended a ha hended := by
    rcases List.mem_append.mp ha with ha | ha
    · exact h.ended a ha hended
    · rw [List.mem_singleton.mp ha, hactive] at hended
      cases hended
  attended a ha hlive := by
    rcases List.mem_append.mp ha with ha | ha
    · exact h.attended a ha hlive
    · rw [List.mem_singleton.mp ha]
      exact hattends

theorem Sound.go (h : t.Sound cancels) {change : Enrollment → Enrollment}
    (hgo : ∀ e ∈ t.enrollments, change e = e ∨ e.Goes (change e)
      ∧ ((change e).status.isLive = true → t.Attends cancels (change e))) :
    Sound cancels { t with enrollments := t.enrollments.map change } := by
  have same (e : Enrollment) (he : e ∈ t.enrollments) : (change e).id = e.id
      ∧ (change e).cadence = e.cadence ∧ (change e).record = e.record := by
    rcases hgo e he with heq | ⟨hgoes, -⟩
    · rw [heq]
      exact ⟨rfl, rfl, rfl⟩
    · exact hgoes.same
  have live (e : Enrollment) (he : e ∈ t.enrollments)
      (hlive : (change e).status.isLive = true) : e.status.isLive = true := by
    rcases hgo e he with heq | ⟨hgoes, -⟩
    · exact heq ▸ hlive
    · exact hgoes.live
  refine ⟨(ids_map fun e he => (same e he).1).symm ▸ h.enrollments, h.jobs, ?_, ?_, ?_⟩
  · intro _ hchanged _ hchanged' hlive hlive' hcadence hrecord
    obtain ⟨a, ha, rfl⟩ := List.mem_map.mp hchanged
    obtain ⟨b, hb, rfl⟩ := List.mem_map.mp hchanged'
    obtain ⟨hid, hc, hr⟩ := same a ha
    obtain ⟨hid', hc', hr'⟩ := same b hb
    rw [hid, hid']
    exact h.single a ha b hb (live a ha hlive) (live b hb hlive') (hc ▸ hc' ▸ hcadence)
      (hr ▸ hr' ▸ hrecord)
  · intro _ hchanged hended
    obtain ⟨a, ha, rfl⟩ := List.mem_map.mp hchanged
    rcases hgo a ha with heq | ⟨hgoes, -⟩
    · rw [heq] at hended ⊢
      exact h.ended a ha hended
    · exact hgoes.ended hended
  · intro _ hchanged hlive
    obtain ⟨a, ha, rfl⟩ := List.mem_map.mp hchanged
    rcases hgo a ha with heq | ⟨-, hattends⟩
    · rw [heq] at hlive ⊢
      exact h.attended a ha hlive
    · exact hattends hlive

theorem Sound.work (h : t.Sound cancels) {change : Job → Job}
    (hsame : ∀ j ∈ t.jobs, j.SameTask (change j))
    (hwork : ∀ j ∈ t.jobs, change j = j ∨ (change j).Serves cancels ∨ t.Idle j.id) :
    Sound cancels { t with jobs := t.jobs.map change } where
  enrollments := h.enrollments
  jobs := (ids_map fun j hj => (hsame j hj).id).symm ▸ h.jobs
  single := h.single
  ended := h.ended
  attended e he hlive := by
    obtain ⟨j, hj, hpending, hfor, hserves⟩ := h.attended e he hlive
    have hsame := hsame j hj
    refine ⟨change j, List.mem_map_of_mem hj, by rw [hsame.id, hpending], hsame.isFor hfor, ?_⟩
    intro hactive
    rcases hwork j hj with heq | hserves' | hidle
    · rw [heq]
      exact hserves hactive
    · exact hserves'
    · exact absurd hpending (hidle e he hactive)

theorem Turn.sound (h : Turn cancels t u) (ht : t.Sound cancels) : u.Sound cancels := by
  cases h with
  | schedule j hnew => exact ht.schedule hnew
  | enroll e hnew hactive hsole hattends => exact ht.enroll hnew hactive hsole hattends
  | go change hgo => exact ht.go hgo
  | work change hsame hwork => exact ht.work hsame hwork

theorem Turns.sound (h : Turns cancels t u) (ht : t.Sound cancels) : u.Sound cancels := by
  induction h with
  | refl => exact ht
  | tail _ hturn ih => exact hturn.sound ih

/-- An enrollment stays, and goes its course. -/
theorem Turns.course (h : Turns cancels t u) (he : e ∈ t.enrollments) :
    ∃ e' ∈ u.enrollments, e.Course e' := by
  induction h with
  | refl => exact ⟨e, he, .refl⟩
  | tail _ hturn ih =>
    obtain ⟨r, hr, hcourse⟩ := ih
    cases hturn with
    | schedule | work => exact ⟨r, hr, hcourse⟩
    | enroll => exact ⟨r, List.mem_append_left _ hr, hcourse⟩
    | go change hgo =>
      refine ⟨change r, List.mem_map_of_mem hr, ?_⟩
      rcases hgo r hr with heq | ⟨hgoes, -⟩
      · exact heq.symm ▸ hcourse
      · exact hcourse.tail hgoes

/-- A job stays, and is told nothing else. -/
theorem Turns.sameTask (h : Turns cancels t u) (hj : j ∈ t.jobs) :
    ∃ j' ∈ u.jobs, j.SameTask j' := by
  induction h with
  | refl => exact ⟨j, hj, .refl j⟩
  | tail _ hturn ih =>
    obtain ⟨k, hk, hsame⟩ := ih
    cases hturn with
    | enroll | go => exact ⟨k, hk, hsame⟩
    | schedule => exact ⟨k, List.mem_append_left _ hk, hsame⟩
    | work change hsame' => exact ⟨change k, List.mem_map_of_mem hk, hsame.trans (hsame' k hk)⟩

/-! ## Who waits for a job -/

theorem Sound.eq_of_enrollment (h : t.Sound cancels) (he : e ∈ t.enrollments)
    (he' : e' ∈ t.enrollments) (hid : e.id = e'.id) : e = e' :=
  List.inj_on_of_nodup_map h.enrollments he he' hid

theorem Sound.eq_of_job (h : t.Sound cancels) (hj : j ∈ t.jobs) (hj' : j' ∈ t.jobs)
    (hid : j.id = j'.id) : j = j' :=
  List.inj_on_of_nodup_map h.jobs hj hj' hid

/-- The job that a live enrollment waits for is its own. -/
theorem Sound.isFor (h : t.Sound cancels) (he : e ∈ t.enrollments) (hlive : e.status.isLive = true)
    (hj : j ∈ t.jobs) (hpending : e.pendingJob = some j.id) : j.IsFor e := by
  obtain ⟨k, hk, hpending', hfor, -⟩ := h.attended e he hlive
  rw [hpending, Option.some.injEq] at hpending'
  exact h.eq_of_job hj hk hpending' ▸ hfor

/-- A job of another kind is waited for by nobody. -/
theorem Sound.idle_of_kind (h : t.Sound cancels) (hj : j ∈ t.jobs) (hkind : j.kind ≠ cadenceKind) :
    t.Idle j.id := fun e he hactive hpending =>
  hkind (h.isFor he (by rw [hactive]; rfl) hj hpending).kind

/-- If the enrollment that a job was told of does not wait for it, nobody does. -/
theorem Sound.idle_of_read (h : t.Sound cancels) (hj : j ∈ t.jobs) {id : Uuid}
    (hread : (j.payload.demand "enrollment_id" >>= Value.identifier) = .ok id)
    (hnot : ∀ e ∈ t.enrollments, e.id = id → e.status = .active → e.pendingJob ≠ some j.id) :
    t.Idle j.id := fun e he hactive hpending => by
  have hfor := h.isFor he (by rw [hactive]; rfl) hj hpending
  exact hnot e he (hfor.eq_of_read hread).symm hactive hpending

/-- The job of an enrollment that does not wait for it any more is waited for by nobody. -/
theorem Sound.idle_of_isFor (h : t.Sound cancels) (hj : j ∈ t.jobs) (hfor : j.IsFor e)
    (hnot : ∀ r ∈ t.enrollments, r.id = e.id → r.status = .active → r.pendingJob ≠ some j.id) :
    t.Idle j.id := fun r hr hactive hpending => by
  have hfor' := h.isFor hr (by rw [hactive]; rfl) hj hpending
  exact hnot r hr (hfor.unique hfor').1 hactive hpending

/-- As long as an enrollment waits for the same job, it is at the same step. -/
theorem Turns.step_eq (h : Turns cancels t u) (ht : t.Sound cancels) (he : e ∈ t.enrollments)
    (he' : e' ∈ u.enrollments) (hlive : e.status.isLive = true) (hlive' : e'.status.isLive = true)
    (hpending : e'.pendingJob = e.pendingJob) : e'.step = e.step := by
  obtain ⟨j, hj, hjob, hfor, -⟩ := ht.attended e he hlive
  obtain ⟨j', hj', hsame⟩ := h.sameTask hj
  have hjob' : e'.pendingJob = some j'.id := by rw [hpending, hjob, hsame.id]
  have hfor' : j'.IsFor e' := (h.sound ht).isFor he' hlive' hj' hjob'
  exact ((hsame.isFor hfor).unique hfor').2

end Timetable

end RecordFlow
