import RecordFlow.Proofs.Calendar.Period
import RecordFlow.Proofs.Run.Upheld
import RecordFlow.Proofs.Schema.Identifier
import RecordFlow.Proofs.Text.Digits

/-! # Workflows that are due

A sweep queues a job for each workflow that has never been scheduled or whose interval has passed, and
for no other, as long as no interval is longer than the calendar can count. One such workflow that has
been scheduled before makes every sweep fail, whichever others are due.
-/
namespace RecordFlow
open RecordFlow.Flow Calendar

/-! ## Keys -/

namespace Uuid
open Text

/-- Beside its dashes the text of an identifier has hexadecimal digits only. -/
theorem isHexDigit_of_mem_text {u : Uuid} {c : Char} (h : c ∈ u.text.toList) (hdash : c ≠ '-') :
    IsHexDigit c := by
  have hdigits : c ∈ u.digits := by
    rw [← u.filter_text]
    exact List.mem_filter.mpr ⟨h, bne_iff_ne.mpr hdash⟩
  exact isHexDigit_of_mem_digits hdigits

theorem colon_not_mem_text (u : Uuid) : ':' ∉ u.text.toList := fun h =>
  absurd ((isHexDigit_of_mem_text h (by decide)).holds (· != ':') (by decide)) (by decide)

end Uuid

namespace Workflow

def periodKey (id : Uuid) (period : Int) : String := s!"workflow_scheduled:{id.text}:{period}"

theorem toList_periodKey (id : Uuid) (n : Int) : (periodKey id n).toList
    = "workflow_scheduled:".toList ++ (id.text.toList ++ ':' :: (toString n).toList) := by
  have colon : ":".toList = [':'] := rfl
  have joined : periodKey id n = "workflow_scheduled:" ++ id.text ++ ":" ++ toString n := rfl
  rw [joined, String.toList_append, String.toList_append, String.toList_append, colon,
    List.append_assoc, List.append_assoc, List.singleton_append]

theorem periodKey_isEmpty (id : Uuid) (n : Int) : (periodKey id n).isEmpty = false := by
  rw [String.isEmpty_eq_false_iff]
  intro hempty
  have hlist := toList_periodKey id n
  rw [hempty] at hlist
  exact absurd (congrArg List.length hlist) (by simp)

/-- A key tells of one workflow and one period. -/
theorem periodKey_inj {id id' : Uuid} {n n' : Int} (h : periodKey id n = periodKey id' n') :
    id = id' ∧ n = n' := by
  have hlist := congrArg String.toList h
  rw [toList_periodKey, toList_periodKey] at hlist
  obtain ⟨hid, hn⟩ := Text.append_cons_inj id.colon_not_mem_text id'.colon_not_mem_text
    (List.append_cancel_left hlist)
  exact ⟨Uuid.text_injective (String.toList_inj.mp hid),
    Text.toString_injective (String.toList_inj.mp hn)⟩

end Workflow

/-! ## Intervals -/

namespace StoredWorkflow

def interval (r : StoredWorkflow) : Except Failure Int := do
  let config ← r.config.lookable.mapError .shape
  config.wholeOr "interval_minutes" Workflow.defaultIntervalMinutes

def minutes (r : StoredWorkflow) : Int := r.interval.toOption.getD 0

/-- The longest interval whose days can be counted. -/
def longestInterval : Int := 1439999999999

structure IsPaced (r : StoredWorkflow) : Prop where
  interval : r.interval = .ok r.minutes
  least : 1 ≤ r.minutes
  most : r.minutes ≤ longestInterval

def isScheduled (r : StoredWorkflow) : Bool := r.trigger = Trigger.scheduled.name && r.isEnabled

def isDueAt (t : Instant) (r : StoredWorkflow) : Bool :=
  r.lastScheduledAt.all fun last => last.micros + r.minutes * 60 * microsPerSecond ≤ t.micros

def sentAt (t : Instant) (r : StoredWorkflow) : StoredWorkflow := { r with lastScheduledAt := some t }

structure Gets (r : StoredWorkflow) (t : Instant) (j : Job) : Prop where
  kind : j.kind = scheduledKind
  payload : j.payload = .obj [("workflow_id", .uuid r.id)]
  status : j.status = .pending
  runAt : j.runAt = t
  key : ∃ n, t.period? (r.minutes * 60) = .ok n ∧ j.key = some (Workflow.periodKey r.id n)

variable {r : StoredWorkflow} {t : Instant} {w : World}

theorem interval_eq_ok {n : Int} (h : r.interval = .ok n) : ∃ config, r.config.lookable = .ok config
    ∧ config.wholeOr "interval_minutes" Workflow.defaultIntervalMinutes = .ok n := by
  unfold interval at h
  cases hconfig : r.config.lookable with
  | error cause => rw [hconfig] at h; cases h
  | ok config => exact ⟨config, rfl, by rwa [hconfig] at h⟩

end StoredWorkflow

theorem Job.schedule_ends (d : Job.Draft) {key : String} {w : World} (hkey : d.key = some key)
    (hnonempty : key.isEmpty = false) (hnew : ∀ j ∈ w.tables.jobs, j.key ≠ some key)
    (hfits : Cell.fits (givenOr d.maxAttempts w.settings.maxAttempts) = true) :
    Ends (Job.schedule d) w
      (fun j v => j.kind = d.kind ∧ j.payload = d.payload ∧ j.status = .pending
        ∧ j.runAt = d.runAt.getD w.clock.wall ∧ j.key = some key
        ∧ v = (w.useNumber .job).setRows (w.tables.jobs ++ [j]))
      fun _ _ => False := by
  have hfind : w.tables.jobs.find? (fun j => j.key = some key) = none :=
    List.find?_eq_none.mpr fun j hj => by simpa using hnew j hj
  have alone (row : Job) (hrow : row.key = some key) : (!w.tables.jobs.any row.clashes) = true := by
    have apart : ∀ j ∈ w.tables.jobs, row.clashes j = false := fun j hj => by
      have hne := hnew j hj
      rw [clashes, hrow, decide_eq_false fun heq => hne heq.symm, Bool.and_false]
    simpa using apart
  have sized : [0, givenOr d.maxAttempts w.settings.maxAttempts].all Cell.fits = true := by
    have none_yet : Cell.fits 0 = true := by decide
    simp only [List.all_cons, List.all_nil, none_yet, hfits, Bool.and_self]
  unfold Job.schedule
  rw [hkey]
  dsimp only
  rw [hnonempty]
  refine Ends.step (a := w.tables.jobs) (t := w) rfl ?_
  rw [hfind]
  unfold Job.add
  refine .step rfl (.step rfl (.step rfl ?_))
  refine (insertIf_ends rfl sized (alone _ hkey)).mono ?_ fun _ _ h => h
  rintro j v ⟨rfl, rfl⟩
  exact ⟨rfl, rfl, rfl, rfl, hkey, rfl⟩

namespace Workflow
variable {r : StoredWorkflow} {t : Instant} {w : World}

theorem isDue_eq (hr : r.IsPaced) :
    isDue r.lastScheduledAt t.moment r.minutes = .ok (r.isDueAt t) := by
  unfold isDue StoredWorkflow.isDueAt
  cases r.lastScheduledAt with
  | none => rfl
  | some last =>
    have hleast := hr.least
    have hmost := hr.most
    have later : r.minutes * 60 * microsPerSecond ≤ t.moment.universal.micros - last.micros
        ↔ last.micros + r.minutes * 60 * microsPerSecond ≤ t.micros := by
      have : t.moment.universal.micros = t.micros + -0 := rfl
      omega
    have hcounted : r.minutes * 60 < Calendar.uncounted := by
      have : StoredWorkflow.longestInterval * 60 < Calendar.uncounted := by decide
      omega
    rw [Calendar.seconds?_eq (by omega) hcounted]
    exact congrArg Except.ok (decide_eq_decide.mpr later)

/-! ## Sweeps -/

structure Swept (t : Instant) (due : List StoredWorkflow) (w : World) (jobs : List Job) (v : World) :
    Prop where
  gets : List.Forall₂ (fun r j => r.Gets t j) due jobs
  jobs : v.tables.jobs = w.tables.jobs ++ jobs
  workflows : v.tables.workflows = w.tables.workflows.map fun r =>
    if r.id ∈ due.map StoredWorkflow.id then r.sentAt t else r
  settings : v.settings = w.settings
  numbers : v.nextNumber .workflow = w.nextNumber .workflow

namespace Swept
variable {u v : World} {due more : List StoredWorkflow} {jobs added : List Job}

/-- Whoever has a job was due. -/
theorem got (h : Swept t due w jobs v) {j : Job} (hj : j ∈ jobs) : ∃ r ∈ due, r.Gets t j := by
  have gets := h.gets
  clear h
  induction gets with
  | nil => cases hj
  | @cons r k due jobs hr _ ih =>
    rcases List.mem_cons.mp hj with rfl | hj
    · exact ⟨r, List.mem_cons_self, hr⟩
    · obtain ⟨s, hs, hgets⟩ := ih hj
      exact ⟨s, List.mem_cons_of_mem _ hs, hgets⟩

theorem refl (t : Instant) (w : World) : Swept t [] w [] w where
  gets := .nil
  jobs := (List.append_nil _).symm
  workflows := by simp
  settings := rfl
  numbers := rfl

theorem trans (h : Swept t due w jobs u) (h' : Swept t more u added v) :
    Swept t (due ++ more) w (jobs ++ added) v where
  gets := List.rel_append h.gets h'.gets
  jobs := by rw [h'.jobs, h.jobs, List.append_assoc]
  workflows := by
    rw [h'.workflows, h.workflows, List.map_map]
    refine List.map_congr_left fun r _ => ?_
    have same : (r.sentAt t).id = r.id := rfl
    have twice : (r.sentAt t).sentAt t = r.sentAt t := rfl
    rw [Function.comp_apply, List.map_append]
    by_cases hdue : r.id ∈ due.map StoredWorkflow.id
    · rw [if_pos hdue, same, twice, ite_self, if_pos (List.mem_append_left _ hdue)]
    · rw [if_neg hdue]
      simp only [List.mem_append, hdue, false_or]
  settings := h'.settings.trans h.settings
  numbers := h'.numbers.trans h.numbers

end Swept

/-- A workflow that is due gets a job and is marked as scheduled, and one that is not is left alone. -/
theorem scheduleIfDue_ends (hr : r.IsPaced) (ht : 0 ≤ t.micros) (hsmall : t.micros < 2 ^ 52 * 1000000)
    (hfits : Cell.fits w.settings.maxAttempts = true)
    (hnew : r.isDueAt t = true → ∀ n, t.period? (r.minutes * 60) = .ok n →
      ∀ j ∈ w.tables.jobs, j.key ≠ some (periodKey r.id n)) :
    Ends (scheduleIfDue r t.moment) w
      (fun made v => ∃ jobs, made.toList = jobs.map Job.id
        ∧ Swept t ([r].filter (·.isDueAt t)) w jobs v)
      fun _ _ => False := by
  obtain ⟨config, hconfig, hminutes⟩ := StoredWorkflow.interval_eq_ok hr.interval
  have hleast := hr.least
  have hmost := hr.most
  have hlength : StoredWorkflow.longestInterval * 60 < 2 ^ 52 := by decide
  obtain ⟨n, hn, -⟩ : ∃ n, t.period? (r.minutes * 60) = .ok n ∧ t.Reaches (r.minutes * 60) n :=
    Instant.period?_reaches ht hsmall (by omega) (by omega)
  have huniversal : t.moment.universal = t := by
    rw [Moment.universal, Instant.moment, Instant.add, Int.neg_zero, Int.add_zero]
  unfold scheduleIfDue
  rw [hconfig]
  refine .step (a := config) (t := w) rfl ?_
  rw [hminutes]
  refine .step (a := r.minutes) (t := w) rfl ?_
  rw [isDue_eq hr]
  refine .step (a := r.isDueAt t) (t := w) rfl ?_
  split
  · next hdue =>
    rw [List.filter_cons_of_pos hdue, List.filter_nil, huniversal, hn]
    refine .step (a := n) (t := w) rfl ?_
    refine (Job.schedule_ends _ rfl (periodKey_isEmpty r.id n) (hnew hdue n hn) ?_).bind
      (fun _ _ h => h) ?_
    · exact hfits
    · rintro j v - ⟨hkind, hpayload, hstatus, hrunAt, hkey, rfl⟩
      refine .step (a := ()) rfl (.pure ⟨[j], rfl, ?_, rfl, ?_, rfl, ?_⟩)
      · exact .cons ⟨hkind, hpayload, hstatus, hrunAt, n, hn, hkey⟩ .nil
      · refine List.map_congr_left fun s _ => ?_
        show (if decide (s.id = r.id) then s.sentAt t else s)
          = if s.id ∈ [r.id] then s.sentAt t else s
        simp only [decide_eq_true_eq, List.mem_singleton]
      · exact w.nextNumber_useNumber .job .workflow
  · next hdue =>
    rw [List.filter_cons_of_neg hdue, List.filter_nil]
    exact .pure ⟨[], rfl, .refl t w⟩

theorem scheduleEach_ends {rows : List StoredWorkflow} (hids : (rows.map StoredWorkflow.id).Nodup)
    (hpaced : ∀ r ∈ rows, r.IsPaced) (ht : 0 ≤ t.micros) (hsmall : t.micros < 2 ^ 52 * 1000000)
    (hfits : Cell.fits w.settings.maxAttempts = true)
    (hnew : ∀ r ∈ rows, r.isDueAt t = true → ∀ n, t.period? (r.minutes * 60) = .ok n →
      ∀ j ∈ w.tables.jobs, j.key ≠ some (periodKey r.id n)) :
    Ends (scheduleEach t.moment rows) w
      (fun ids v => ∃ jobs, ids = jobs.map Job.id
        ∧ Swept t (rows.filter (·.isDueAt t)) w jobs v)
      fun _ _ => False := by
  induction rows generalizing w with
  | nil => exact .pure ⟨[], rfl, .refl t w⟩
  | cons r rest ih =>
    rw [List.map_cons, List.nodup_cons] at hids
    rw [List.forall_mem_cons] at hpaced hnew
    unfold scheduleEach
    refine (scheduleIfDue_ends hpaced.1 ht hsmall hfits hnew.1).bind (fun _ _ h => h) ?_
    rintro made u - ⟨first, hmade, hfirst⟩
    have fresh : ∀ s ∈ rest, s.isDueAt t = true → ∀ n, t.period? (s.minutes * 60) = .ok n →
        ∀ j ∈ u.tables.jobs, j.key ≠ some (periodKey s.id n) := by
      intro s hs hdue n hn j hj hkey
      rw [hfirst.jobs, List.mem_append] at hj
      rcases hj with hj | hj
      · exact hnew.2 s hs hdue n hn j hj hkey
      · obtain ⟨r', hr', hgets⟩ := hfirst.got hj
        obtain rfl : r' = r := List.mem_singleton.mp (List.mem_of_mem_filter hr')
        obtain ⟨m, -, hown⟩ := hgets.key
        obtain ⟨hid, -⟩ := periodKey_inj (Option.some.inj (hown.symm.trans hkey))
        exact hids.1 (hid ▸ List.mem_map_of_mem hs)
    have after := ih hids.2 hpaced.2 (hfirst.settings ▸ hfits) fresh
    refine after.bind (fun _ _ h => h) ?_
    rintro ids v - ⟨more, rfl, hmore⟩
    refine .pure ⟨first ++ more, by rw [hmade, List.map_append], ?_⟩
    rw [← List.singleton_append, List.filter_append]
    exact hfirst.trans hmore

/-- A sweep serves exactly the workflows that are due, and saves that. -/
theorem scheduleDue_ends (hids : (w.tables.workflows.map StoredWorkflow.id).Nodup)
    (hpaced : ∀ r ∈ w.tables.workflows, r.isScheduled = true → r.IsPaced) (ht : 0 ≤ t.micros)
    (hsmall : t.micros < 2 ^ 52 * 1000000) (hfits : Cell.fits w.settings.maxAttempts = true)
    (hnew : ∀ r ∈ w.tables.workflows, r.isScheduled = true → r.isDueAt t = true →
      ∀ n, t.period? (r.minutes * 60) = .ok n → ∀ j ∈ w.tables.jobs, j.key ≠ some (periodKey r.id n)) :
    Ends (scheduleDue t.moment) w
      (fun ids v => ∃ jobs u, ids = jobs.map Job.id ∧ v = u.committed
        ∧ Swept t ((w.tables.workflows.filter (·.isScheduled)).filter (·.isDueAt t)) w jobs u)
      fun _ _ => False := by
  have listed (P : StoredWorkflow → Prop)
      (h : ∀ r ∈ w.tables.workflows, r.isScheduled = true → P r) :
      ∀ r ∈ w.tables.workflows.filter (·.isScheduled), P r := fun r hr =>
    h r (List.mem_filter.mp hr).1 (List.mem_filter.mp hr).2
  have swept := scheduleEach_ends (hids.sublist (List.filter_sublist.map _)) (listed _ hpaced) ht hsmall
    hfits (listed _ hnew)
  unfold scheduleDue
  refine .step (a := w.tables.workflows) (t := w) rfl ?_
  refine swept.bind (fun _ _ h => h) ?_
  rintro ids u - ⟨jobs, rfl, hswept⟩
  exact .step (a := ()) rfl (.pure ⟨jobs, u, rfl, rfl, hswept⟩)

/-- Once a workflow has been scheduled, it cannot be told whether an interval has passed that is too
long to be counted. -/
theorem scheduleIfDue_stuck {last : Instant} {n : Int} (hinterval : r.interval = .ok n)
    (hlong : StoredWorkflow.longestInterval < n) (hlast : r.lastScheduledAt = some last) (m : Moment)
    (w : World) : Ends (scheduleIfDue r m) w (fun _ _ => False) fun _ _ => True := by
  obtain ⟨config, hconfig, hminutes⟩ := StoredWorkflow.interval_eq_ok hinterval
  have huncounted : Calendar.uncounted ≤ n * 60 := by
    unfold StoredWorkflow.longestInterval at hlong
    unfold Calendar.uncounted
    omega
  obtain ⟨cause, hcause⟩ := Calendar.seconds?_stuck huncounted
  have unknown : isDue r.lastScheduledAt m n = .error cause := by
    rw [hlast, isDue, hcause]
    rfl
  unfold scheduleIfDue
  rw [hconfig]
  refine .step (a := config) (t := w) rfl ?_
  rw [hminutes]
  refine .step (a := n) (t := w) rfl ?_
  rw [unknown]
  exact .of_error rfl trivial

theorem scheduleEach_stuck {rows : List StoredWorkflow} {last : Instant} {n : Int} (hr : r ∈ rows)
    (hinterval : r.interval = .ok n) (hlong : StoredWorkflow.longestInterval < n)
    (hlast : r.lastScheduledAt = some last) (m : Moment) (w : World) :
    Ends (scheduleEach m rows) w (fun _ _ => False) fun _ _ => True := by
  induction rows generalizing w with
  | nil => cases hr
  | cons s rest ih =>
    unfold scheduleEach
    rcases List.mem_cons.mp hr with rfl | hr
    · exact (scheduleIfDue_stuck hinterval hlong hlast m w).bind (fun _ _ _ => trivial)
        fun _ _ _ h => h.elim
    · refine Ends.any.bind (fun _ _ _ => trivial) fun _ u _ _ => ?_
      exact (ih hr u).bind (fun _ _ _ => trivial) fun _ _ _ h => h.elim

/-- One such workflow stops all sweeps, whichever workflows are due. -/
theorem scheduleDue_stuck {last : Instant} {n : Int} (hr : r ∈ w.tables.workflows)
    (hscheduled : r.isScheduled = true) (hinterval : r.interval = .ok n)
    (hlong : StoredWorkflow.longestInterval < n) (hlast : r.lastScheduledAt = some last) (m : Moment) :
    Ends (scheduleDue m) w (fun _ _ => False) fun _ _ => True := by
  have listed := List.mem_filter.mpr ⟨hr, hscheduled⟩
  refine .step (a := w.tables.workflows) (t := w) rfl ?_
  exact (scheduleEach_stuck listed hinterval hlong hlast m w).bind (fun _ _ _ => trivial)
    fun _ _ _ h => h.elim

end Workflow

end RecordFlow
