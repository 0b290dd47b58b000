import RecordFlow.Job.Sweep
import RecordFlow.Proofs.Run.Upheld
import RecordFlow.Record.Lifecycle
import RecordFlow.Tick

/-! # What jobs uphold

Jobs go on with runs, carry out steps of cadences and schedule workflows, and a record that is written
to triggers workflows. What runs uphold is upheld by all of this, the steps of cadences apart, which
also write to enrollments.
-/
namespace RecordFlow
open RecordFlow.Flow
variable {R : World → World → Prop} {α β : Type}

/-! ## Relations that runs abide by -/

namespace Run

def goingOn : List String := ["delayed", "retry"]

end Run

/-- A relation that is upheld by what jobs and decisions do: by the workflows that a record triggers, by
those that are scheduled, by actions that belong to no workflow, and by what goes on with a run. -/
class Abiding (R : World → World → Prop) : Prop extends Mild R where
  executes : ∀ (t : Trigger) (record : Record) (previous : Option Record),
    Upholds R (Workflow.executeTriggered t.name record previous)
  serves : ∀ (job : Uuid) (payload : Value), Upholds R (Workflow.runScheduled job payload)
  stamps : ∀ (id : Uuid) (t : Calendar.Instant),
    Incidental R (update id fun w : StoredWorkflow => { w with lastScheduledAt := some t })
  starts : ∀ (c : Context) (actions : List Action) (halts : Bool), c.workflow = none →
    Upholds R (Run.start c actions halts)
  goesOn : ∀ (c : Context) (actions : List Action) (halts : Bool) (parent : Option Uuid),
    c.trigger ∈ Run.goingOn → Upholds R (do
      let r ← Run.start c actions halts
      Run.linkParent r.run parent
      return r)

/-- A run that goes on with another is hung under it before anything else happens. -/
theorem Run.upholds_startUnder [Abiding R] {c : Context} (hc : c.trigger ∈ goingOn)
    (actions : List Action) (halts : Bool) (parent : Option Uuid) {rest : RunResult → Flow α}
    (hrest : ∀ r, Upholds R (rest r)) : Upholds R (do
      let r ← Run.start c actions halts
      linkParent r.run parent
      rest r) := by
  have started := Steady.bind (Abiding.goesOn c actions halts parent hc) hrest
  simpa only [bind_assoc, pure_bind] using started

/-- Actions that belong to no workflow are carried out with the default budget. -/
theorem Run.upholds_fresh [Undoes World.rolledBack R] {record : Record} {trigger : String}
    {rest : Context → Flow α} (hrest : ∀ n, Upholds R (rest (.root record trigger n))) :
    Upholds R (Context.fresh record trigger >>= rest) := fun w =>
  .step (a := .root record trigger w.settings.maxActions) rfl (hrest _ w)

namespace Workflow

theorem upholds_runForEach [Undoes World.rolledBack R] {w : Workflow} {job : Uuid}
    {records : List Record} (hexecute : ∀ record ∈ records, ∀ n, Upholds R
      (w.executeIn { Context.root record Trigger.scheduled.name n with
        key := some (scheduledKey job record.id) } record))
    (t : Tally) : Upholds R (runForEach w job records t) := by
  induction records generalizing t with
  | nil => exact .pure t
  | cons record rest ih =>
    have ih := ih fun r hr => hexecute r (List.mem_cons_of_mem _ hr)
    unfold runForEach
    refine .ite (Run.upholds_fresh fun n => ?_) (ih t)
    exact .bind (hexecute record List.mem_cons_self n) fun r => ih _

theorem looks_recordList (module : Value) (limit : Int) : Looks (Record.list module limit) := by
  unfold Record.list Record.limited
  refine .bind (.taken anyCause _) fun _ => .bind (.all StoredRecord) fun rows => ?_
  refine .bind (.bind (.taken anyCause _) fun _ => .pure _) fun _ => ?_
  exact .mapM _ (fun row => .shaped anyCause _) _

theorem upholds_runScheduled [Undoes World.rolledBack R] (job : Uuid) (payload : Value) {w : World}
    (hexecute : ∀ row ∈ w.tables.workflows, ∀ x, row.definition = .valid x → ∀ record n, Upholds R
      (x.executeIn { Context.root record Trigger.scheduled.name n with
        key := some (scheduledKey job record.id) } record)) :
    Ends (runScheduled job payload) w (fun _ v => R w v) fun _ v => R w v.rolledBack := by
  have stays : R w w.rolledBack := Undoes.undone w
  unfold runScheduled
  refine (looks_orThrow _).followed (fun _ => stays) fun id => .step (find?_eq id w) ?_
  cases hfound : (Stored.rows w.tables).find? fun r : StoredWorkflow => Stored.id r = id with
  | none => exact .pure (refl_of R w)
  | some row =>
    have hexecute := hexecute row (List.mem_of_find?_eq_some hfound)
    dsimp only
    generalize row.definition = defined at hexecute ⊢
    refine .ite (fun _ => .pure (refl_of R w)) fun _ => upholds_valid (fun x hx => ?_) w
    refine .bind (.looks .settings) fun _ => .bind (.looks (looks_recordList _ _)) fun records => ?_
    exact .bind (upholds_runForEach (fun r _ => hexecute x hx r) _) fun _ => .pure _

end Workflow

instance [Bearing R] : Abiding R where
  executes t := Workflow.upholds_executeTriggered t.name
  serves job payload _ := Workflow.upholds_runScheduled job payload fun _ _ x _ record n =>
    Workflow.upholds_executeIn _ x record
  stamps id t := incidental_update id _
  starts c actions halts _ := Run.upholds_start c actions halts
  goesOn c actions halts parent _ := by
    have started := Bearing.goesOn (R := R) (c.budget.remaining + 1) c actions halts parent
    simpa only [Run.start, Context.reaction, Workflow.reaction_eq_reactionOn, bind_assoc, pure_bind]
      using started

/-! ## Failures that are caught -/

section Abiding
variable [Abiding R]

theorem Ends.orFailure {part : Flow α} {y : Except Failure α → Flow β} {w : World}
    {ok : α → World → Prop} {bad bad' : Failure → World → Prop} {next : β → World → Prop}
    (hx : Ends part w ok bad) (hok : ∀ a v, ok a v → Ends (y (.ok a)) v next bad')
    (hbad : ∀ e v, bad e v → Ends (y (.error e)) v next bad') :
    Ends (Job.orFailure part >>= y) w next bad' := by
  cases h : part w with
  | ok a v =>
    refine .step (a := .ok a) (t := v) (by rw [Job.orFailure, h]) ?_
    exact hok a v (hx.ok_of h)
  | error e v =>
    refine .step (a := .error e) (t := v) (by rw [Job.orFailure, h]) ?_
    exact hbad e v (hx.bad_of h)

theorem Upholds.orFailure {part : Flow α} {y : Except Failure α → Flow β} (hx : Upholds R part)
    (hok : ∀ a, Upholds R (y (.ok a)))
    (herror : ∀ e, Recovers World.rolledBack R (y (.error e))) :
    Upholds R (Job.orFailure part >>= y) := fun w => by
  refine (hx w).orFailure (fun a v h => ?_) fun e v h => ?_
  · exact (hok a v).mono (fun _ _ => trans_of R h) fun _ _ => trans_of R h
  · exact (herror e v).mono (fun _ _ => trans_of R h) fun _ _ => trans_of R h

/-- Counting before a failure is passed on. -/
theorem recovers_countThrow (s : Sample) (e : Failure) :
    Recovers World.rolledBack R (do count s; throw e : Flow α) := fun _ =>
  .step (a := ()) rfl (Around.kept ⟨⟨rfl, rfl, rfl, Nat.le_refl _, rfl, rfl, rfl, List.prefix_rfl⟩, rfl⟩)

def World.under (w : World) (correlation : Option String) : World :=
  { w with ambient := { w.ambient with correlation := correlation } }

theorem Ends.correlated {part : Flow α} {w : World} {correlation : Option String}
    {ok ok' : α → World → Prop} {bad bad' : Failure → World → Prop}
    (hx : Ends part (w.under correlation) ok bad) (hok : ∀ a v c, ok a v → ok' a (v.under c))
    (hbad : ∀ e v c, bad e v → bad' e (v.under c)) : Ends (correlated correlation part) w ok' bad' := by
  refine .step (a := w) (t := w) rfl (.step (a := ()) (t := w.under correlation) rfl ?_)
  refine hx.tryFinally (fun a v h => ?_) fun e v h => ?_
  · exact .of_ok (a := ()) rfl (hok a v _ h)
  · exact .of_ok (a := ()) rfl (hbad e v _ h)

theorem upholds_correlated {part : Flow α} (h : Upholds R part) (correlation : Option String) :
    Upholds R (correlated correlation part) := fun w => by
  have before : R w (w.under correlation) := (Around.ambient w _).kept
  refine Ends.correlated (h (w.under correlation)) (fun _ v c hv => ?_) fun _ v c hv => ?_
  · have after : R v (v.under c) := (Around.ambient v _).kept
    exact trans_of R before (trans_of R hv after)
  · have after : R v.rolledBack (v.under c).rolledBack := (Around.ambient v.rolledBack _).kept
    exact trans_of R before (trans_of R hv after)

/-- A failure is undone before it is recorded. -/
theorem Job.recovers_failure {id : Uuid} {cause : Failure} (kind : String)
    (hrecord : Upholds R (recordFailure id cause)) : Recovers World.rolledBack R (do
      rollback
      match ← orFailure (recordFailure id cause) with
      | .ok outcome =>
        count (.job kind outcome.name)
        return outcome
      | .error cause =>
        count (.job kind JobOutcome.failed.name)
        throw cause) := by
  refine Steady.recovers (fun _ => ⟨(), rfl⟩) fun _ => hrecord.orFailure (fun outcome => ?_) fun _ => ?_
  · exact .bind (Incidental.upholds (incidental_count _)) fun _ => .pure _
  · exact recovers_countThrow _ _

/-! ## Steps of cadences -/

omit [Abiding R] in
theorem incidental_advance [Lenient R] [Schedules R] [Indifferent R Enrollment] (e : Enrollment)
    (steps : List CadenceStep) : Incidental R (e.advance steps) := by
  unfold Enrollment.advance
  refine .bind .now fun t => .ite (.bind (incidental_store _) fun _ => .pure _) ?_
  exact .bind (.stepAt passed _ _) fun s => incidental_openEnrollmentStep _ s t

namespace Enrollment
variable [Indifferent R Enrollment]

theorem upholds_haltFor [Cancels R] (e : Enrollment) (reason : String) :
    Upholds R (e.haltFor reason) :=
  .bind (Incidental.upholds (incidental_halt e reason none)) fun _ =>
    .bind upholds_commit fun _ => .pure _

theorem upholds_carryOut (e : Enrollment) (job : Uuid) (steps : List CadenceStep) (s : CadenceStep)
    (record : Record) : Upholds R (e.carryOut job steps s record) := by
  unfold carryOut
  refine Run.upholds_fresh fun n => .bind (.looks .settings) fun settings => ?_
  refine .bind (Abiding.starts _ _ _ rfl) fun run => ?_
  have wentOn : Upholds R (do
      let current ← fetch Enrollment e.id
      if current.status ≠ .active ∨ current.pendingJob ≠ some job then
        commit
        return stepOutcome run e.step current
      let moved ← advance { current with step := e.step } steps
      commit
      return stepOutcome run e.step moved) := by
    refine .bind (.looks (.fetch anyCause Enrollment _)) fun current => .ite ?_ ?_
    · exact .bind upholds_commit fun _ => .pure _
    · exact .bind (Incidental.upholds (incidental_advance _ _)) fun _ =>
        .bind upholds_commit fun _ => .pure _
  refine .ite ?_ wentOn
  split
  · exact .bind (.throw _) fun _ => wentOn
  · exact .bind (.throw _) fun _ => wentOn

theorem upholds_processStep [Cancels R] (job : Uuid) (payload : Value) :
    Upholds R (processStep job payload) := by
  have proceeded (e : Enrollment) : Upholds R (e.proceed job) := by
    unfold proceed
    refine .bind (.looks (.fetch anyCause Cadence _)) fun c => ?_
    refine .bind (.looks (.valid anyCause _)) fun steps => ?_
    refine .ite ?_ (.bind (.looks (.recordGet? anyCause _)) fun found => ?_)
    · exact .bind (.looks .now) fun _ => .bind (Incidental.upholds (incidental_store _)) fun _ =>
        .bind upholds_commit fun _ => .pure _
    · cases found with
      | none => exact upholds_haltFor e _
      | some record =>
        refine .ite (upholds_haltFor e _) (.bind (.looks (.stepAt anyCause _ _)) fun s => ?_)
        exact upholds_carryOut e job steps s record
  unfold processStep
  refine .bind (upholds_orThrow _) fun id => .bind (.looks (.find? Enrollment id)) fun found => ?_
  cases found with
  | none => exact .pure _
  | some e => exact .ite (.pure _) (.ite (.pure _) (proceeded e))

end Enrollment

/-! ## Jobs of workflows -/

namespace Run

theorem upholds_handedBudget (payload : Fields) : Upholds R (handedBudget payload) :=
  .bind (.looks .settings) fun _ => .bind (upholds_orThrow _) fun _ =>
    .bind (upholds_orThrow _) fun _ => .pure _

theorem upholds_recordOf? (payload : Value) : Upholds R (recordOf? payload) :=
  .bind (upholds_orThrow _) fun _ => .looks (.recordGet? anyCause _)

end Run

namespace Workflow

theorem upholds_haltsOf? (workflow : Option Uuid) : Upholds R (haltsOf? workflow) := by
  unfold haltsOf?
  split
  · exact .pure _
  · refine .bind (.looks (.find? StoredWorkflow _)) fun found => ?_
    cases found with
    | none => exact .pure _
    | some w => exact .pure _

theorem upholds_resumeDelayed (payload : Value) : Upholds R (resumeDelayed payload) := by
  unfold resumeDelayed
  refine .bind (Run.upholds_recordOf? payload) fun found => ?_
  cases found with
  | none => exact .pure _
  | some record =>
    refine .bind (upholds_haltsOf? _) fun halts => ?_
    cases halts with
    | none => exact .pure _
    | some halts =>
      refine .bind (Run.upholds_handedBudget _) fun budget => .bind (upholds_orThrow _) fun depth => ?_
      refine .bind (.looks (.valid anyCause _)) fun actions => ?_
      exact Run.upholds_startUnder (List.mem_cons_self) _ _ _ fun r => .pure _

theorem upholds_retryAction (payload : Value) : Upholds R (retryAction payload) := by
  unfold retryAction
  refine .bind (Run.upholds_recordOf? payload) fun found => ?_
  cases found with
  | none => exact .pure _
  | some record =>
    refine .bind (upholds_orThrow _) fun written => .bind (.looks (.valid anyCause _)) fun action => ?_
    refine .bind (Run.upholds_handedBudget _) fun budget => ?_
    refine Run.upholds_startUnder (List.mem_cons_of_mem _ List.mem_cons_self) _ _ _ fun r =>
      .ite ?_ (.pure _)
    split
    · exact .bind (.throw _) fun _ => .pure _
    · exact .bind (.throw _) fun _ => .pure _

theorem upholds_scheduleDue (m : Calendar.Moment) : Upholds R (scheduleDue m) := by
  have one (row : StoredWorkflow) : Upholds R (scheduleIfDue row m) := by
    unfold scheduleIfDue
    refine .bind (.looks (.shaped anyCause _)) fun config => .bind (upholds_orThrow _) fun minutes => ?_
    refine .bind (.looks (.inTime anyCause _)) fun isDue => .ite ?_ (.pure _)
    refine .bind (.looks (.inTime anyCause _)) fun period => ?_
    refine .bind (Incidental.upholds (Schedules.schedule _)) fun job => ?_
    exact .bind (Incidental.upholds (Abiding.stamps _ _)) fun _ => .pure _
  have each (rows : List StoredWorkflow) : Upholds R (scheduleEach m rows) := by
    induction rows with
    | nil => exact .pure _
    | cons row rest ih => exact .bind (one row) fun _ => .bind ih fun _ => .pure _
  exact .bind (.looks (.all StoredWorkflow)) fun _ => .bind (each _) fun _ =>
    .bind upholds_commit fun _ => .pure _

end Workflow

/-- What runs uphold is upheld by the handlers of all jobs, if enrollments may be written to and jobs
may be cancelled. -/
theorem Job.upholds_handle [Cancels R] [Indifferent R Enrollment] (j : Job) :
    Upholds R j.handle := by
  unfold handle
  refine .bind (.looks .wiring) fun w => .guarded ?_
  refine .ite (Workflow.upholds_resumeDelayed _) (.ite (Workflow.upholds_retryAction _) ?_)
  refine .ite (Abiding.serves _ _) (.ite (Enrollment.upholds_processStep _ _) ?_)
  exact .throw _

/-! ## Records -/

namespace Record

theorem upholds_create (d : Draft) : Upholds R (create d) := by
  unfold create
  refine .bind (.looks (.shaped anyCause _)) fun fields => .bind (.looks .now) fun t => ?_
  refine .bind (Incidental.upholds (incidental_insertTaken _ _)) fun row => ?_
  exact .bind (.looks (.shaped anyCause _)) fun _ => .pure _

theorem upholds_launch (d : Draft) : Upholds R (launch d) := by
  unfold launch reread
  refine .bind (upholds_create d) fun r => .bind upholds_commit fun _ => ?_
  refine .bind (Abiding.executes _ _ _) fun runs => ?_
  exact .bind (.bind (.looks (.recordGet? anyCause _)) fun _ => .pure _) fun _ => .pure _

theorem upholds_revise (id : Uuid) (changes : Fields) : Upholds R (revise id changes) := by
  unfold revise reread
  have looked (r : Record) : Upholds R (do return (← get? r.id).getD r) :=
    .bind (.looks (.recordGet? anyCause _)) fun _ => .pure _
  refine .bind (.looks (.recordFetch anyCause id)) fun before => ?_
  refine .bind (Incidental.upholds (incidental_patch _ _ _)) fun after => ?_
  refine .bind upholds_commit fun _ => .bind (Abiding.executes _ _ _) fun _ => ?_
  refine .bind (looked after) fun current => ?_
  refine .bind (Abiding.executes _ _ _) fun _ => ?_
  exact .bind (looked current) fun _ => .pure _

end Record

end Abiding

end RecordFlow

/-! ## What sweeps leave alone

Jobs carry out steps of cadences, go on with runs and are put off or given up. Whether the job
succeeds or fails, what runs uphold is upheld by all of this, unless it is about jobs or enrollments.
-/
namespace RecordFlow
open RecordFlow.Flow
variable {R : World → World → Prop} [Abiding R] [Indifferent R Job]

namespace Job

theorem upholds_recordFailure (id : Uuid) (cause : Failure) :
    Upholds R (recordFailure id cause) := by
  unfold recordFailure
  refine .bind (.looks (.fetch anyCause Job id)) fun j => .bind (.looks .now) fun t => .ite ?_ ?_
  · refine .bind (.looks .settings) fun _ => .bind (.looks (.inTime anyCause _)) fun wait => ?_
    refine .bind (.looks (.inTime anyCause _)) fun runAt => ?_
    refine .bind (Incidental.upholds (incidental_store _)) fun _ => ?_
    exact .bind upholds_commit fun _ => .pure _
  · exact .bind (Incidental.upholds (incidental_store _)) fun _ => .bind upholds_commit fun _ => .pure _

theorem upholds_claimPending (id : Uuid) (worker : Option String) :
    Upholds R (claimPending id worker) := by
  unfold claimPending
  refine .bind (.looks .now) fun t => .bind (.looks .settings) fun s => ?_
  refine .bind (Incidental.upholds (incidental_updateWhere _ _)) fun n => ?_
  exact .bind upholds_commit fun _ => .pure _

variable [Indifferent R Enrollment]

theorem upholds_runClaimed (id : Uuid) : Upholds R (runClaimed id) := by
  have counted (s : Sample) (outcome : JobOutcome) : Upholds R (do
      count s
      return outcome : Flow JobOutcome) :=
    .bind (Incidental.upholds (incidental_count _)) fun _ => .pure _
  unfold runClaimed
  refine .bind (.looks (.fetch anyCause Job id)) fun j => .bind (.looks .ambient) fun a => ?_
  refine upholds_correlated ((upholds_handle j).orFailure (fun output => ?_) fun cause => ?_) _
  · refine .bind (.looks (.fetch anyCause Job id)) fun done => .bind (.looks .now) fun t => ?_
    refine .bind (Incidental.upholds (incidental_store _)) fun _ => ?_
    exact .bind upholds_commit fun _ => counted _ _
  · exact recovers_failure _ (upholds_recordFailure id cause)

theorem upholds_process (cutoff : Calendar.Instant) (limit : Option Int) (worker : Option String) :
    Upholds R (process cutoff limit worker) := by
  have each (ids : List Uuid) (s : Sweep) : Upholds R (runEach worker ids s) := by
    induction ids generalizing s with
    | nil => exact .pure s
    | cons id rest ih =>
      unfold runEach
      refine .bind (upholds_claimPending id worker) fun claimed => .ite ?_ (ih _)
      exact .bind (upholds_runClaimed id) fun outcome => ih _
  have due (limit : Int) : Upholds R (dueIds cutoff limit) := by
    unfold dueIds Record.limited
    refine .bind (.looks (.all Job)) fun rows => .bind ?_ fun _ => .pure _
    exact .bind (.looks (.taken anyCause _)) fun _ => .pure _
  exact .bind (.looks .settings) fun _ => .bind (due _) fun ids => each ids _

end Job

end RecordFlow
