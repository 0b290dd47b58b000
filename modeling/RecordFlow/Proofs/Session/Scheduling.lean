import RecordFlow.Proofs.Session.Editing
import RecordFlow.Proofs.Workflow.Due

/-! # Sessions of sweeps

Workflows are stored and swept for, at any times from 1970 on and in any order. Every sweep succeeds
and queues a new job for each workflow that is due, and for no other: a workflow that is due again got
no job in this period yet.
-/
namespace RecordFlow
open RecordFlow.Flow Calendar

/-! ## Drafts -/

/-- A configuration that is in order tells an interval of at least a minute. -/
theorem wholeOr_of_configRule {config : Fields} (h : configRule? config = none) :
    ∃ n, config.wholeOr "interval_minutes" Workflow.defaultIntervalMinutes = .ok n ∧ 1 ≤ n := by
  have inOrder : intervalInOrder config = true := by
    unfold configRule? at h
    split at h
    · cases h
    · split at h
      · cases h
      · next hinterval => simpa using hinterval
  unfold intervalInOrder at inOrder
  unfold Fields.wholeOr
  cases hfield : config.getD "interval_minutes" with
  | null => exact ⟨60, rfl, by decide⟩
  | int n =>
    rw [hfield] at inOrder
    have hn : 1 ≤ n := of_decide_eq_true inOrder
    have given : (Value.int n).isFalsy = false := beq_eq_false_iff_ne.mpr (by omega)
    exact ⟨n, by rw [Value.orElse, given]; rfl, hn⟩
  | bool b =>
    rw [hfield] at inOrder
    obtain rfl : b = true := inOrder
    exact ⟨1, rfl, by decide⟩
  | _ =>
    rw [hfield] at inOrder
    cases inOrder

def WorkflowDraft.minutes (d : WorkflowDraft) : Int :=
  (d.config.wholeOr "interval_minutes" Workflow.defaultIntervalMinutes).toOption.getD 0

/-- A workflow that is stored from a draft has the interval of the draft. -/
theorem WorkflowDraft.IsRead.paced {d : WorkflowDraft} {r : StoredWorkflow} (h : d.IsRead)
    (hr : d.Fills r) (hshort : d.minutes ≤ StoredWorkflow.longestInterval) : r.IsPaced := by
  obtain ⟨n, hn, hleast⟩ := wholeOr_of_configRule h.config
  have hminutes : d.minutes = n := by rw [minutes, hn]; rfl
  have hinterval : r.interval = .ok n := by
    rw [StoredWorkflow.interval, hr.config]
    exact hn
  have hsame : r.minutes = n := by rw [StoredWorkflow.minutes, hinterval]; rfl
  exact ⟨by rw [hinterval, hsame], by omega, by omega⟩

/-! ## What sweeps keep -/

/-- Scheduled workflows have intervals that can be counted, and got jobs for no period that is still
to come when they are due again. -/
structure World.Punctual (w : World) : Prop where
  saved : w.saved = w.tables
  numbered : Numbered .workflow (w.nextNumber .workflow) (w.tables.workflows.map StoredWorkflow.id)
  paced : ∀ r ∈ w.tables.workflows, r.isScheduled = true → r.IsPaced
  started : ∀ r ∈ w.tables.workflows, ∀ last, r.lastScheduledAt = some last → 0 ≤ last.micros
  keys : ∀ j ∈ w.tables.jobs, ∀ id n, j.key = some (Workflow.periodKey id n) →
    ∃ r ∈ w.tables.workflows, r.id = id ∧ ∃ last m, r.lastScheduledAt = some last
      ∧ last.period? (r.minutes * 60) = .ok m ∧ n ≤ m
  fits : Cell.fits w.settings.maxAttempts = true

def World.dueAt (w : World) (t : Instant) : List StoredWorkflow :=
  (w.tables.workflows.filter (·.isScheduled)).filter (·.isDueAt t)

structure Calendar.Instant.IsModern (t : Instant) : Prop where
  start : 0 ≤ t.micros
  inRange : t.inRange = true

theorem Calendar.Instant.IsModern.small {t : Instant} (h : t.IsModern) :
    t.micros < 2 ^ 52 * 1000000 := by
  have hrange := t.inRange_iff.mp h.inRange
  omega

namespace World.Punctual
variable {w : World} {t : Instant}

/-- The period in which a workflow is due again is later than the one it was scheduled in. -/
theorem advances (hw : w.Punctual) (ht : t.IsModern) {r : StoredWorkflow}
    (hr : r ∈ w.tables.workflows) (hscheduled : r.isScheduled = true) (hdue : r.isDueAt t = true)
    {last : Instant} (hlast : r.lastScheduledAt = some last) {m : Int}
    (hm : last.period? (r.minutes * 60) = .ok m) :
    ∃ n, t.period? (r.minutes * 60) = .ok n ∧ m < n := by
  have hpaced := hw.paced r hr hscheduled
  have hleast := hpaced.least
  have hmost := hpaced.most
  have hlength : StoredWorkflow.longestInterval * 60 < 2 ^ 52 := by decide
  have hstart := hw.started r hr last hlast
  have hsmall := ht.small
  have hlater : last.micros + r.minutes * 60 * 1000000 ≤ t.micros := by
    rw [StoredWorkflow.isDueAt, hlast] at hdue
    exact of_decide_eq_true hdue
  obtain ⟨m', hm', hreached⟩ : ∃ m', last.period? (r.minutes * 60) = .ok m'
      ∧ last.Reaches (r.minutes * 60) m' :=
    Instant.period?_reaches hstart (by omega) (by omega) (by omega)
  obtain ⟨n, hn, hreaches⟩ : ∃ n, t.period? (r.minutes * 60) = .ok n ∧ t.Reaches (r.minutes * 60) n :=
    Instant.period?_reaches ht.start hsmall (by omega) (by omega)
  obtain rfl : m' = m := Except.ok.inj (hm'.symm.trans hm)
  exact ⟨n, hn, hreached.lt hreaches hstart (by omega) hlater⟩

/-- When a workflow is due, it got no job in this period yet. -/
theorem fresh (hw : w.Punctual) (ht : t.IsModern) {r : StoredWorkflow} (hr : r ∈ w.tables.workflows)
    (hscheduled : r.isScheduled = true) (hdue : r.isDueAt t = true) {n : Int}
    (hn : t.period? (r.minutes * 60) = .ok n) {j : Job} (hj : j ∈ w.tables.jobs) :
    j.key ≠ some (Workflow.periodKey r.id n) := by
  intro hkey
  obtain ⟨s, hs, hid, last, m, hlast, hm, hle⟩ := hw.keys j hj r.id n hkey
  obtain rfl : s = r := hw.numbered.eq_of_id hs hr hid
  obtain ⟨n', hn', hlt⟩ := hw.advances ht hs hscheduled hdue hlast hm
  obtain rfl : n' = n := Except.ok.inj (hn'.symm.trans hn)
  omega

/-- A sweep succeeds and queues a new job for each workflow that is due, and for no other. -/
theorem served (hw : w.Punctual) (ht : t.IsModern) :
    Ends (Workflow.scheduleDue t.moment) w
      (fun ids v => ∃ jobs u, ids = jobs.map Job.id ∧ v = u.committed
        ∧ Workflow.Swept t (w.dueAt t) w jobs u)
      fun _ _ => False :=
  Workflow.scheduleDue_ends hw.numbered.distinct hw.paced ht.start ht.small hw.fits
    fun _ hr hscheduled hdue _ hn _ hj => hw.fresh ht hr hscheduled hdue hn hj

theorem swept (hw : w.Punctual) (ht : t.IsModern) {jobs : List Job} {u : World}
    (h : Workflow.Swept t (w.dueAt t) w jobs u) : u.committed.Punctual := by
  have due {r : StoredWorkflow} (hr : r ∈ w.tables.workflows)
      (hid : r.id ∈ (w.dueAt t).map StoredWorkflow.id) :
      r.isScheduled = true ∧ r.isDueAt t = true := by
    obtain ⟨s, hs, heq⟩ := List.mem_map.mp hid
    obtain ⟨hlisted, hdue⟩ := List.mem_filter.mp hs
    obtain ⟨hmem, hscheduled⟩ := List.mem_filter.mp hlisted
    obtain rfl : s = r := hw.numbered.eq_of_id hmem hr heq
    exact ⟨hscheduled, hdue⟩
  -- A workflow afterwards is one of before, marked if it was served.
  have origin {P : StoredWorkflow → Prop} (hsame : ∀ r ∈ w.tables.workflows, P r)
      (hsent : ∀ r ∈ w.tables.workflows, P (r.sentAt t)) : ∀ r ∈ u.tables.workflows, P r := by
    intro r hr
    rw [h.workflows] at hr
    obtain ⟨s, hs, rfl⟩ := List.mem_map.mp hr
    split
    · exact hsent s hs
    · exact hsame s hs
  refine ⟨rfl, ?_, ?_, ?_, ?_, ?_⟩
  · show Numbered .workflow (u.nextNumber .workflow) (u.tables.workflows.map StoredWorkflow.id)
    rw [h.numbers, h.workflows]
    exact hw.numbered.map fun r _ => by split <;> rfl
  · refine origin hw.paced fun r hr hscheduled => ?_
    have hpaced := hw.paced r hr hscheduled
    exact ⟨hpaced.interval, hpaced.least, hpaced.most⟩
  · refine origin hw.started fun r _ last hlast => ?_
    obtain rfl : t = last := Option.some.inj hlast
    exact ht.start
  · intro j hj id n hkey
    rw [World.committed, h.jobs, List.mem_append] at hj
    show ∃ r ∈ u.tables.workflows, _
    rw [h.workflows]
    rcases hj with hj | hj
    · obtain ⟨r, hr, rfl, last, m, hlast, hm, hle⟩ := hw.keys j hj id n hkey
      by_cases hid : r.id ∈ (w.dueAt t).map StoredWorkflow.id
      · obtain ⟨hscheduled, hdue⟩ := due hr hid
        obtain ⟨m', hm', hlt⟩ := hw.advances ht hr hscheduled hdue hlast hm
        exact ⟨r.sentAt t, List.mem_map.mpr ⟨r, hr, if_pos hid⟩, rfl, t, m', rfl, hm', by omega⟩
      · exact ⟨r, List.mem_map.mpr ⟨r, hr, if_neg hid⟩, rfl, last, m, hlast, hm, hle⟩
    · obtain ⟨r, hdue, hgets⟩ := h.got hj
      obtain ⟨m, hm, hown⟩ := hgets.key
      obtain ⟨rfl, rfl⟩ := Workflow.periodKey_inj (Option.some.inj (hown.symm.trans hkey))
      have hr := List.mem_of_mem_filter (List.mem_of_mem_filter hdue)
      have hid : r.id ∈ (w.dueAt t).map StoredWorkflow.id := List.mem_map_of_mem hdue
      exact ⟨r.sentAt t, List.mem_map.mpr ⟨r, hr, if_pos hid⟩, rfl, t, m, rfl, hm, Int.le_refl m⟩
  · show Cell.fits u.settings.maxAttempts = true
    rw [h.settings]
    exact hw.fits

/-- A workflow that is stored, with an interval that can be counted, waits for its first sweep. -/
theorem adds (hw : w.Punctual) {d : WorkflowDraft} {r : StoredWorkflow} {v : World}
    (h : d.Adds w r v) (hpaced : r.isScheduled = true → r.IsPaced) : v.committed.Punctual := by
  have hnext : v.nextNumber .workflow = w.nextNumber .workflow + 1 := by
    rw [World.nextNumber_congr h.numbers]
    exact w.nextNumber_used .workflow
  have either {P : StoredWorkflow → Prop} (hrows : ∀ s ∈ w.tables.workflows, P s) (hr : P r) :
      ∀ s ∈ v.tables.workflows, P s := by
    rw [h.tables]
    exact List.forall_mem_append.mpr ⟨hrows, List.forall_mem_singleton.mpr hr⟩
  refine ⟨rfl, ?_, either hw.paced hpaced, either hw.started ?_, ?_, ?_⟩
  · show Numbered .workflow (v.nextNumber .workflow) (v.tables.workflows.map StoredWorkflow.id)
    rw [hnext, h.tables]
    exact hw.numbered.append h.id
  · intro last hlast
    rw [h.lastScheduledAt] at hlast
    cases hlast
  · rw [World.committed, h.tables]
    intro j hj id n hkey
    obtain ⟨s, hs, hrest⟩ := hw.keys j hj id n hkey
    exact ⟨s, List.mem_append_left _ hs, hrest⟩
  · show Cell.fits v.settings.maxAttempts = true
    rw [h.settings]
    exact hw.fits

theorem unstored (hw : w.Punctual) {v : World} (hsaved : v.saved = w.saved)
    (hsettings : v.settings = w.settings) (hnumbers : w.nextNumber .workflow ≤ v.nextNumber .workflow) :
    v.rolledBack.Punctual := by
  have htables : v.rolledBack.tables = w.tables := hsaved.trans hw.saved
  refine ⟨rfl, ?_, ?_, ?_, ?_, ?_⟩
  · rw [htables]
    exact hw.numbered.mono hnumbers
  · rw [htables]
    exact hw.paced
  · rw [htables]
    exact hw.started
  · rw [htables]
    exact hw.keys
  · show Cell.fits v.settings.maxAttempts = true
    rw [hsettings]
    exact hw.fits

end World.Punctual

/-! ## Sessions -/

/-- A command that stores a workflow as a request says, with an interval that can be counted if it is
to be scheduled, or that sweeps for workflows. -/
inductive Command.IsPunctual : Command → Prop where
  | create (request : Value) {d : WorkflowDraft} (actor : String)
    (hread : WorkflowDraft.decode request = .valid d)
    (hshort : d.trigger = .scheduled → d.minutes ≤ StoredWorkflow.longestInterval) :
    IsPunctual (.errand (.createWorkflow d actor))
  | sweep {t : Instant} (ht : t.IsModern) : IsPunctual (.errand (.scheduleDue t.moment))

section Sessions
variable {w : World}

theorem Command.IsPunctual.after {c : Command} (hc : c.IsPunctual) (hw : w.Punctual) :
    (c.after w).Punctual := by
  unfold Command.after
  cases hc with
  | @create request d actor hread hshort =>
    have created := d.create_ends actor w
    have ended : Ends (discard (d.create actor) : Flow Unit) w (fun _ v => v.committed.Punctual)
        fun _ v => v.rolledBack.Punctual := by
      refine Ends.map (created.mono (fun r v h => ?_) fun e v h => ?_)
      · refine hw.adds h fun hscheduled => ?_
        have hname : r.trigger = Trigger.scheduled.name :=
          of_decide_eq_true (Bool.and_eq_true_iff.mp hscheduled).1
        have htrigger := Trigger.name_injective (h.fills.trigger.symm.trans hname)
        exact (WorkflowDraft.isRead_of_decode hread).paced h.fills (hshort htrigger)
      · refine hw.unstored h.1 h.2.1 ?_
        rw [World.nextNumber_congr h.2.2]
        exact w.nextNumber_le_useNumber .workflow .workflow
    cases hrun : Command.run (.errand (.createWorkflow d actor)) w with
    | ok _ v => exact ended.ok_of hrun
    | error e v => exact ended.bad_of hrun
  | @sweep t ht =>
    have ended : Ends (discard (Workflow.scheduleDue t.moment) : Flow Unit) w
        (fun _ v => v.committed.Punctual) fun _ _ => False := by
      refine Ends.map ((hw.served ht).mono ?_ fun _ _ h => h)
      rintro ids v ⟨jobs, u, -, rfl, hswept⟩
      have kept : u.committed.Punctual := hw.swept ht hswept
      exact kept
    cases hrun : Command.run (.errand (.scheduleDue t.moment)) w with
    | ok _ v => exact ended.ok_of hrun
    | error e v => exact (ended.bad_of hrun).elim

theorem World.IsNew.punctual (hw : w.IsNew) (hfits : Cell.fits w.settings.maxAttempts = true) :
    w.Punctual := by
  refine ⟨hw.sound.saved, ?_, ?_, ?_, ?_, hfits⟩ <;> rw [hw.1]
  · exact .nil
  · exact List.forall_mem_nil _
  · exact List.forall_mem_nil _
  · exact List.forall_mem_nil _

theorem World.Punctual.afterAll (hw : w.Punctual) {session : List Command}
    (hsession : ∀ c ∈ session, c.IsPunctual) : (w.afterAll session).Punctual := by
  induction session generalizing w with
  | nil => exact hw
  | cons c rest ih =>
    rw [List.forall_mem_cons] at hsession
    exact ih (hsession.1.after hw) hsession.2

/-- Whatever workflows were stored and whenever sweeps were made, the next sweep succeeds, queues a new
pending job for each workflow that has never been scheduled or whose interval has passed, and for no
other, and marks just these. -/
theorem World.afterAll_served (hw : w.IsNew) (hfits : Cell.fits w.settings.maxAttempts = true)
    {session : List Command} (hsession : ∀ c ∈ session, c.IsPunctual) {t : Instant} (ht : t.IsModern) :
    Ends (Workflow.scheduleDue t.moment) (w.afterAll session)
      (fun ids v => ∃ jobs u, ids = jobs.map Job.id ∧ v = u.committed
        ∧ Workflow.Swept t ((w.afterAll session).dueAt t) (w.afterAll session) jobs u)
      fun _ _ => False :=
  ((hw.punctual hfits).afterAll hsession).served ht

def sweepsAt (minutes : List Int) : List Command :=
  minutes.map fun n => .errand (.scheduleDue (Calendar.Instant.mk (n * 60 * 1000000)).moment)

-- A workflow that runs every half hour is served at once, and again after thirty minutes.
example : ((World.fresh.afterAll (.errand (.createWorkflow halfHourly "admin")
    :: sweepsAt [0, 29, 30])).tables.jobs.map fun j => j.runAt.micros) = [0, 1800000000] := by
  decide +kernel

end Sessions

end RecordFlow
