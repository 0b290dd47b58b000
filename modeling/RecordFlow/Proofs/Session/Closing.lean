import RecordFlow.Proofs.Run.Closing
import RecordFlow.Proofs.Session.Timekeeping

/-! # The runs of a session

Every command closes the runs that it opens, whether it succeeds or fails, and leaves alone the runs
that earlier ones closed. So in whatever state a session ends, no run is under way, and the trail tells
of every run once how it ended.
-/
namespace RecordFlow
open RecordFlow.Flow

/-- What neither jobs nor enrollments matter to is upheld by every command, if it is upheld by runs and
decisions. -/
theorem Command.upholds_any {R : World → World → Prop} [Aloof R] [Bearing R] [Timeless R]
    [Indifferent R Job] [Indifferent R Enrollment] (c : Command) : Upholds R c.run :=
  c.upholds_run (fun id actor => Incidental.upholds (incidental_pause id actor))
    (fun id actor => Incidental.upholds (incidental_resume id actor))
    (fun _ => Job.upholds_claimPending)
    (fun id _ => Incidental.upholds (incidental_cancelPending id)) fun _ => Job.upholds_process

instance {R : World → World → Prop} [AboutRuns R] [Bearing R] : Aloof R where
  approvals := AboutRuns.indifferent fun _ _ => rfl
  entries := AboutRuns.indifferent fun _ _ => rfl
  stageChanges := AboutRuns.indifferent fun _ _ => rfl
  blueprints := AboutRuns.indifferent fun _ _ => rfl
  processes := AboutRuns.indifferent fun _ _ => rfl

/-- Once a command is saved or undone, the runs that it opened are closed. -/
theorem Command.after_closesRuns (c : Command) (w : World) : ClosesRuns w (c.after w) :=
  Command.after_upheld c.upholds_any w

theorem World.afterAll_closesRuns (w : World) (session : List Command) :
    ClosesRuns w (w.afterAll session) := by
  induction session generalizing w with
  | nil => exact refl_of ClosesRuns w
  | cons c rest ih => exact trans_of ClosesRuns (c.after_closesRuns w) (ih (c.after w))

theorem World.IsNew.runsKept {w : World} (hw : w.IsNew) : w.RunsKept :=
  ⟨congrArg Tables.runs hw.sound.saved, hw.sound.free⟩

/-! ## What is told of one run -/

def AuditEntry.isAbout (run : Uuid) (e : AuditEntry) : Bool := e.tellsRun && e.entityId = run.text

theorem closings_isAbout (run : Uuid) (notes : List AuditEntry) :
    closings (notes.filter (AuditEntry.isAbout run))
      = (closings notes).filter fun c => c.1 = run.text := by
  rw [closings, closings, List.filterMap_filter, List.filter_filterMap]
  refine List.filterMap_congr fun e _ => ?_
  cases htells : e.tellsRun with
  | false => simp [AuditEntry.closing?, AuditEntry.isAbout, htells]
  | true => simp [AuditEntry.closing?, AuditEntry.isAbout, htells, Option.filter]

theorem closings_eq_map {notes : List AuditEntry} (h : ∀ e ∈ notes, e.tellsRun = true) :
    closings notes = notes.map fun e => (e.entityId, e.after.fields.getD "status") := by
  rw [closings, ← List.filterMap_eq_map]
  exact List.filterMap_congr fun e he => by simp [AuditEntry.closing?, h e he]

theorem Run.filter_closing {runs : List Run} (h : (runs.map (·.id)).Nodup) {r : Run} (hr : r ∈ runs) :
    (runs.map closing).filter (fun c => c.1 = r.id.text) = [r.closing] := by
  obtain ⟨before, after, rfl⟩ := List.append_of_mem hr
  rw [List.map_append, List.map_cons, List.nodup_append, List.nodup_cons] at h
  obtain ⟨-, ⟨hafter, -⟩, hbefore⟩ := h
  have others (more : List Run) (hmore : ∀ s ∈ more, s.id ≠ r.id) :
      (more.map closing).filter (fun c => c.1 = r.id.text) = [] := by
    refine List.filter_eq_nil_iff.mpr fun c hc heq => ?_
    obtain ⟨s, hs, rfl⟩ := List.mem_map.mp hc
    exact hmore s hs (Uuid.text_injective (of_decide_eq_true heq))
  have ahead := others before fun s hs => hbefore s.id (List.mem_map_of_mem hs) r.id List.mem_cons_self
  have behind := others after fun s hs heq => hafter (heq ▸ List.mem_map_of_mem hs)
  rw [List.map_append, List.map_cons, List.filter_append, ahead, List.nil_append, List.filter_cons,
    behind]
  exact if_pos (decide_eq_true rfl)

/-- The trail tells of a run once, as it tells of all runs once and no other bears its identifier. -/
theorem Closures.told_once {rows new : List Run} {next : Nat} {trail notes : List AuditEntry}
    {v : World} (h : Closures rows next trail v new notes) {r : Run} (hr : r ∈ new) :
    ∃ e, notes.filter (AuditEntry.isAbout r.id) = [e]
      ∧ e.after.fields.getD "status" = .str r.status := by
  have told := h.told.filter fun c => c.1 = r.id.text
  rw [Run.filter_closing h.distinct hr, ← closings_isAbout] at told
  have once := List.perm_singleton.mp told
  have tells : ∀ e ∈ notes.filter (AuditEntry.isAbout r.id), e.tellsRun = true := fun e he =>
    (Bool.and_eq_true_iff.mp (List.mem_filter.mp he).2).1
  rw [closings_eq_map tells] at once
  obtain ⟨e, he, hstatus⟩ := List.map_eq_singleton_iff.mp once
  exact ⟨e, he, congrArg Prod.snd hstatus⟩

/-- Whatever is asked for, and whether it succeeds or fails: no run is under way afterwards, every run
that was opened has ended as completed, failed or capped, the trail tells so once, and what is asked
for later changes nothing of it. A run that goes on with another is hung under it right away. -/
theorem World.afterAll_runs {w : World} (hw : w.IsNew) (session : List Command) :
    ∃ notes, (w.afterAll session).journal.audit = w.journal.audit ++ notes
      ∧ (∀ r ∈ (w.afterAll session).tables.runs, r.status ≠ RunStatus.running.name ∧ r.IsClosed
        ∧ ∃ e, notes.filter (AuditEntry.isAbout r.id) = [e]
          ∧ e.after.fields.getD "status" = .str r.status)
      ∧ ∀ before later, session = before ++ later →
        (w.afterAll before).tables.runs <+: (w.afterAll session).tables.runs := by
  obtain ⟨new, notes, closures⟩ := w.afterAll_closesRuns session hw.runsKept
  have hrows : (w.afterAll session).tables.runs = new := by
    rw [closures.runs, hw.1]
    rfl
  refine ⟨notes, closures.audit, ?_, ?_⟩
  · intro r hr
    rw [hrows] at hr
    have closed := closures.closed r hr
    exact ⟨closed.not_running, closed, closures.told_once hr⟩
  · intro before later hsession
    have joined : w.afterAll session = (w.afterAll before).afterAll later := by
      rw [hsession]
      exact List.foldl_append
    obtain ⟨_, _, earlier⟩ := w.afterAll_closesRuns before hw.runsKept
    obtain ⟨more, _, later⟩ := (w.afterAll before).afterAll_closesRuns later earlier.kept
    exact ⟨more, by rw [joined, later.runs]⟩

def forNewDeals (actions : List Action) (cap : Option Int) : Command :=
  .errand (.createWorkflow {
    name := "greet"
    description := none
    module := "deals"
    isEnabled := true
    trigger := .onCreate
    config := []
    conditions := none
    actions := actions
    haltOnFailure := true
    runCountCap := cap
    cooldownSeconds := none
    priority := 0 } "admin")

/-- A deal is created; of the two runs that follow, one waits and the other meets its limit. -/
def greeted : List Command :=
  let note (id : String) : Action := ⟨id, none, .addNote "seen" false⟩
  [ forNewDeals [⟨"wait", none, .delayWait ⟨0, 1, 0, 0, false, none⟩⟩, note "later"] none,
    forNewDeals [note "first", note "second"] (some 1),
    .errand (.launch ⟨.str "deals", .str "Deal", .null, .null, .obj [], .null⟩)]

def wentOn : List Command := [.errand (.process ⟨60000000⟩ none none)]

set_option maxRecDepth 10000 in
theorem greeted_runs :
    (World.fresh.afterAll greeted).tables.runs.map (fun r => (r.status, r.parent))
      = [("completed", none), ("capped", none)]
    ∧ (World.fresh.afterAll (greeted ++ wentOn)).tables.runs.map (fun r => (r.status, r.parent))
      = [("completed", none), ("capped", none), ("completed", some (TableName.run.rowId 1))] := by
  decide +kernel

/-- All three runs are closed and told of once, and the third changed nothing of the other two. -/
theorem World.afterAll_runs_greeted : World.fresh.IsNew
    ∧ (World.fresh.afterAll (greeted ++ wentOn)).tables.runs.length = 3
    ∧ (∃ notes : List AuditEntry, ∀ r ∈ (World.fresh.afterAll (greeted ++ wentOn)).tables.runs,
      r.IsClosed ∧ ∃ e, notes.filter (AuditEntry.isAbout r.id) = [e]
        ∧ e.after.fields.getD "status" = .str r.status)
    ∧ (World.fresh.afterAll greeted).tables.runs.length = 2
    ∧ (World.fresh.afterAll greeted).tables.runs
      <+: (World.fresh.afterAll (greeted ++ wentOn)).tables.runs := by
  obtain ⟨hbefore, hafter⟩ := greeted_runs
  obtain ⟨notes, -, hclosed, hprefix⟩ := World.afterAll_runs World.fresh_isNew (greeted ++ wentOn)
  refine ⟨World.fresh_isNew, ?_, ⟨notes, fun r hr => (hclosed r hr).2⟩, ?_, hprefix _ _ rfl⟩
  · simpa using congrArg List.length hafter
  · simpa using congrArg List.length hbefore

end RecordFlow
