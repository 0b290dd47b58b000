import RecordFlow.Proofs.Workflow.Scheduled

/-! # Jobs that are served more than once

The handler of a job for a scheduled workflow may be executed any number of times, by sweeps and by itself,
and anything may happen in between. For a record the executions for one job open one run at most, and once
there is one, none of them does anything more for the record.
-/
namespace RecordFlow
open RecordFlow.Flow

/-- A command, an execution by itself of the handler for scheduled workflows, whatever the job says, or a
single turn of an execution that is interrupted after it, or that something else gets into. -/
inductive Undertaking where
  | command (c : Command)
  | serve (job : Uuid) (payload : Value)
  | turn (job : Uuid) (x : Workflow) (r : Record) (maxActions : Int)

namespace Undertaking
variable {w : World}

def run : Undertaking → Flow Unit
  | command c => c.run
  | serve job payload => discard (Workflow.runScheduled job payload)
  | turn job x r maxActions => discard (x.executeIn (Workflow.turn job r maxActions) r)

def job? : Undertaking → Option Uuid
  | command _ => none
  | serve job _ => some job
  | turn job _ _ _ => some job

/-- The world after an undertaking, which is saved if it succeeds and undone, as far as it was not saved
before, if it fails. -/
def after (u : Undertaking) (w : World) : World :=
  match u.run w with
  | .ok _ v => v.committed
  | .error _ v => v.rolledBack

theorem after_of_upholds {R : World → World → Prop} [Mild R] {u : Undertaking}
    (h : Upholds R u.run) (w : World) : R w (u.after w) := by
  unfold after
  cases hu : u.run w with
  | ok _ v => exact trans_of R (h.ok hu) (Mild.commits v)
  | error e v => exact h.error hu

theorem after_upheld {R : World → World → Prop} [AboutRuns R] [Bearing R] (u : Undertaking)
    (w : World) : R w (u.after w) := by
  have upheld : Upholds R u.run := by
    cases u with
    | command c => exact c.upholds_any
    | serve job payload => exact (Abiding.serves job payload).discard
    | turn job x r maxActions => exact (Workflow.upholds_executeIn _ x r).discard
  exact after_of_upholds upheld w

/-- Every run that is opened for the schedule as the handler of a job is executed has the key of the
job. -/
theorem after_opensOnly {u : Undertaking} {job : Uuid} (h : u.job? = some job) (w : World) :
    Run.OpensOnly (Workflow.Serves job) w (u.after w) := by
  have upheld : Upholds (Run.OpensOnly (Workflow.Serves job)) u.run := by
    cases u with
    | command c => cases h
    | serve job payload =>
      cases h
      exact (Workflow.runScheduled_opensOnly job payload).discard
    | turn job x r maxActions =>
      cases h
      exact (Workflow.turn_opensOnly x job r maxActions).discard
  exact after_of_upholds upheld w

def opened (job record : Uuid) (w : World) (u : Undertaking) : Nat :=
  if u.job? = some job then
    ((u.after w).tables.runs.drop w.tables.runs.length).countP fun r =>
      r.trigger = Trigger.scheduled.name && r.record = some record
  else 0

end Undertaking

instance : Tolerant (Run.OpensOnly fun _ => True) where
  toRecording := inferInstance
  cooldowns := inferInstance
  workflows := inferInstance
  opens c w := by
    refine ((Run.openRun_ends c w).and (Run.openRun_refused c w)).mono ?_ ?_
    · exact fun _ _ h => h.1.opensOnly fun _ _ => trivial
    · rintro e v ⟨-, rfl⟩
      exact trans_of (Run.OpensOnly _) (Lenient.numbered w .run) (AboutRuns.undone _)

theorem Run.KeysApart.countP_le_one {runs : List Run} (h : KeysApart runs) (key : String) :
    runs.countP (fun r => r.key = some key) ≤ 1 := by
  induction runs with
  | nil => exact Nat.zero_le 1
  | cons r rest ih =>
    obtain ⟨hr, hrest⟩ := List.pairwise_cons.mp h
    rw [List.countP_cons]
    split
    · next hkey =>
      have none_left : rest.countP (fun s => s.key = some key) = 0 :=
        List.countP_eq_zero.mpr fun s hs => by
          simpa using hr s hs key (of_decide_eq_true hkey)
      omega
    · exact ih hrest

namespace World
variable {w : World}

def afterEach (w : World) (undertakings : List Undertaking) : World :=
  undertakings.foldl (fun w u => u.after w) w

/-- How many runs the executions of the handler of a job open for the schedule and a record. -/
def openedFor (job record : Uuid) (w : World) : List Undertaking → Nat
  | [] => 0
  | u :: rest => u.opened job record w + (u.after w).openedFor job record rest

/-- What the handler opens has the key of the job for the record, and no run is lost. -/
theorem countP_after (hsaved : w.saved.runs = w.tables.runs) (u : Undertaking) (job record : Uuid) :
    w.tables.runs.countP (Workflow.IsFor job record) + u.opened job record w
      ≤ (u.after w).tables.runs.countP (Workflow.IsFor job record) := by
  have heads (runs : List Run) : runs.countP (Workflow.IsFor job record)
      = (runs.map Run.head).countP fun h => h.key = some (Workflow.scheduledKey job record) := by
    rw [List.countP_map]
    rfl
  have kept : w.tables.runs.countP (Workflow.IsFor job record)
      ≤ (u.after w).tables.runs.countP (Workflow.IsFor job record) := by
    obtain ⟨-, new, hnew, -⟩ := u.after_upheld (R := Run.OpensOnly fun _ => True) w hsaved
    rw [heads, heads, hnew, List.countP_append]
    exact Nat.le_add_right _ _
  rw [Undertaking.opened]
  split
  · next hjob =>
    obtain ⟨-, new, hnew, hserves⟩ := u.after_opensOnly hjob w hsaved
    have behind : ((u.after w).tables.runs.drop w.tables.runs.length).countP
        (fun r => r.trigger = Trigger.scheduled.name && r.record = some record)
        = new.countP fun h => h.trigger = Trigger.scheduled.name && h.record = some record := by
      rw [← Run.heads_drop hnew, List.countP_map]
      rfl
    rw [heads, heads, hnew, List.countP_append, behind]
    refine Nat.add_le_add_left (List.countP_mono_left fun h hh hcounts => ?_) _
    rw [Bool.and_eq_true, decide_eq_true_eq, decide_eq_true_eq] at hcounts
    obtain ⟨record', hrecord, hkey⟩ := hserves h hh hcounts.1
    obtain rfl : record = record' := Option.some.inj (hcounts.2.symm.trans hrecord)
    exact decide_eq_true hkey
  · exact kept

/-- However often the handler is executed, all that it opens for a record is among the runs that have
the key of the job. -/
theorem openedFor_le (hsaved : w.saved.runs = w.tables.runs) (hapart : Run.KeysApart w.tables.runs)
    (undertakings : List Undertaking) (job record : Uuid) :
    let v := w.afterEach undertakings
    (v.saved.runs = v.tables.runs ∧ Run.KeysApart v.tables.runs)
      ∧ w.tables.runs.countP (Workflow.IsFor job record) + w.openedFor job record undertakings
        ≤ v.tables.runs.countP (Workflow.IsFor job record) := by
  induction undertakings generalizing w with
  | nil => exact ⟨⟨hsaved, hapart⟩, Nat.le_refl _⟩
  | cons u rest ih =>
    obtain ⟨hsaved', hapart'⟩ := u.after_upheld (R := Run.KeepsApart) w hsaved hapart
    obtain ⟨hlast, hcount⟩ := ih hsaved' hapart'
    have hstep := countP_after hsaved u job record
    have hopened : w.openedFor job record (u :: rest)
        = u.opened job record w + (u.after w).openedFor job record rest := rfl
    refine ⟨hlast, ?_⟩
    change _ ≤ ((u.after w).afterEach rest).tables.runs.countP _
    omega

/-- Whatever happens and however often the handler of a job is executed: it opens one run at most for a
record, no more than one run has the key of the job for the record, and whatever became of that run, a
further execution does what it would do if the records that have one were not there. -/
theorem afterEach_served (hw : w.IsNew) (undertakings : List Undertaking) (job record : Uuid) :
    let v := w.afterEach undertakings
    w.openedFor job record undertakings ≤ 1
      ∧ (0 < w.openedFor job record undertakings → Workflow.isHandled v job record = true)
      ∧ v.tables.runs.countP (Workflow.IsFor job record) ≤ 1
      ∧ ∀ (x : Workflow) (records : List Record) (t t' : Workflow.Tally),
        (Workflow.runForEach x job records t).leaves v
          = (Workflow.runForEach x job
              (records.filter fun r => !Workflow.isHandled v job r.id) t').leaves v := by
  obtain ⟨⟨hsaved, hapart⟩, hcount⟩ :=
    openedFor_le hw.runsKept.saved hw.keysApart undertakings job record
  have hone := hapart.countP_le_one (Workflow.scheduledKey job record)
  change (w.afterEach undertakings).tables.runs.countP (Workflow.IsFor job record) ≤ 1 at hone
  refine ⟨by omega, fun hpos => ?_, hone, fun x records t t' => ?_⟩
  · obtain ⟨r, hr, hkey⟩ := List.countP_pos_iff.mp (show 0 <
      (w.afterEach undertakings).tables.runs.countP (Workflow.IsFor job record) by omega)
    exact List.any_eq_true.mpr ⟨r, hr, hkey⟩
  · exact Workflow.runForEach_unhandled x job hsaved hapart (fun _ h => h) records t t'

def enrollDeals : Command :=
  .errand (.createWorkflow {
    name := "enroll"
    description := none
    module := "deals"
    isEnabled := true
    trigger := .scheduled
    config := []
    conditions := none
    actions := [⟨"start", none, .startCadence ⟨3⟩⟩]
    haltOnFailure := true
    runCountCap := none
    cooldownSeconds := none
    priority := 0 } "admin")

def servedTwice (job : Uuid) : List Undertaking :=
  let deal : Undertaking :=
    .command (.errand (.create ⟨.str "deals", .str "Deal", .null, .null, .obj [], .null⟩))
  let serve : Undertaking :=
    .serve job (.obj [("workflow_id", .uuid (TableName.workflow.rowId 1))])
  [.command enrollDeals, deal, serve, deal, serve]

set_option maxRecDepth 10000 in
theorem servedTwice_runs :
    (fresh.afterEach (servedTwice ⟨9⟩)).tables.runs.map (fun r => (r.status, r.record))
      = [("failed", some (TableName.record.rowId 1)), ("failed", some (TableName.record.rowId 2))]
    ∧ fresh.openedFor ⟨9⟩ (TableName.record.rowId 1) (servedTwice ⟨9⟩) = 1 := by
  decide +kernel

/-- The run for the first deal has failed, and a further pass over that deal does nothing. -/
theorem afterEach_served_twice : fresh.IsNew
    ∧ fresh.openedFor ⟨9⟩ (TableName.record.rowId 1) (servedTwice ⟨9⟩) = 1
    ∧ (fresh.afterEach (servedTwice ⟨9⟩)).tables.runs.map (fun r => (r.status, r.record))
      = [("failed", some (TableName.record.rowId 1)), ("failed", some (TableName.record.rowId 2))]
    ∧ ∀ (x : Workflow) (r : Record) (t : Workflow.Tally), r.id = TableName.record.rowId 1 →
      (Workflow.runForEach x ⟨9⟩ [r] t).leaves (fresh.afterEach (servedTwice ⟨9⟩))
        = fresh.afterEach (servedTwice ⟨9⟩) := by
  obtain ⟨hruns, hopened⟩ := servedTwice_runs
  obtain ⟨-, hhandled, -, hpass⟩ :=
    afterEach_served fresh_isNew (servedTwice ⟨9⟩) ⟨9⟩ (TableName.record.rowId 1)
  refine ⟨fresh_isNew, hopened, hruns, fun x r t hr => ?_⟩
  have handled := hhandled (by rw [hopened]; exact Nat.one_pos)
  rw [hpass x [r] t t, List.filter_singleton, hr, handled]
  rfl

end World

end RecordFlow
