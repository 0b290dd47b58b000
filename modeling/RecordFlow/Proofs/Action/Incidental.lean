import RecordFlow.Action.Perform
import RecordFlow.Proofs.Store.Beside

/-! # Incidental parts of actions

Choosing owners, sending messages, scheduling jobs and enrolling records happen beside the runs, and
so do all actions but those that write to the record of the run and wait for the reaction.
-/
namespace RecordFlow
open RecordFlow.Flow Scoped
variable {R : World → World → Prop} [Lenient R] {α : Type}

/-! ## Assignment -/

theorem incidental_rotate [Indifferent R AssignmentRule] (rule : Uuid)
    (candidates : List Candidate) (advance : Bool) (tries : Nat) :
    Incidental R (AssignmentRule.rotate rule candidates advance tries) := by
  induction tries with
  | zero => exact .pure _
  | succ tries ih =>
    unfold AssignmentRule.rotate
    refine .bind (.fetch passed AssignmentRule rule) fun current => .ite (.pure _) ?_
    exact .bind (incidental_swap rule _ _) fun swapped => .ite (.pure _) ih

theorem incidental_countOpen (owner module : Value) :
    Incidental R (Record.countOpen owner module) :=
  .bind (.taken passed _) fun _ => .bind (.taken passed _) fun _ =>
    .bind (.all StoredRecord) fun _ => .pure _

theorem incidental_leastLoaded (r : AssignmentRule) (candidates : List Candidate) :
    Incidental R (r.leastLoaded candidates) := by
  unfold AssignmentRule.leastLoaded
  have loads (c : Candidate) : Incidental R (do
      return ((← Record.countOpen (.str c.userId) (.ofOption r.module)), c.userId)) :=
    .bind (incidental_countOpen _ _) fun _ => .pure _
  refine .bind (.mapM _ loads candidates) fun found => ?_
  split
  · exact .pure _
  · exact .pure _

theorem incidental_apply [Indifferent R AssignmentRule] (r : AssignmentRule) (record : Record)
    (advance : Bool) : Incidental R (r.apply record advance) := by
  unfold AssignmentRule.apply
  refine .bind (.shaped passed _) fun items => .bind (.valid passed _) fun candidates => ?_
  split
  · exact .shaped passed _
  · exact .ite (.pure _) (.bind .settings fun _ => incidental_rotate _ _ _ _)
  · exact incidental_leastLoaded r candidates
  · exact .shaped passed _
  · exact .pure _

theorem incidental_counted (d : Decision) : Incidental R d.counted :=
  .bind (incidental_count _) fun _ => .pure _

theorem incidental_resolveAssignment [Indifferent R AssignmentRule] (rule : Uuid)
    (record : Record) (advance : Bool) : Incidental R (resolveAssignment rule record advance) := by
  unfold resolveAssignment
  refine .bind (.find? AssignmentRule rule) fun found => ?_
  cases found with
  | none => exact incidental_counted _
  | some r =>
    exact .ite (incidental_counted _)
      (.bind (incidental_apply r record advance) fun _ => incidental_counted _)

/-! ## Messages and jobs -/

theorem incidental_dispatch [Indifferent R Message] (channel : String) (r : MessageRequest) :
    Incidental R (Message.dispatch channel r) := by
  unfold Message.dispatch
  refine .bind .wiring fun wiring => ?_
  split
  · exact .pure _
  · exact .bind (incidental_insertTaken _ _) fun _ => .pure _

theorem incidental_addJob [Indifferent R Job] (d : Job.Draft) : Incidental R (Job.add d) :=
  .bind .now fun _ => .bind .settings fun _ => .bind .ambient fun _ => incidental_insertIf _ _

class Schedules (R : World → World → Prop) : Prop where
  schedule : ∀ d : Job.Draft, Incidental R (Job.schedule d)

theorem incidental_schedule [Indifferent R Job] (d : Job.Draft) :
    Incidental R (Job.schedule d) := by
  unfold Job.schedule
  split
  · refine .ite (incidental_addJob d) (.bind (.all Job) fun jobs => ?_)
    split
    · exact .pure _
    · exact incidental_addJob d
  · exact incidental_addJob d

instance [Indifferent R Job] : Schedules R := ⟨incidental_schedule⟩

class Cancels (R : World → World → Prop) : Prop where
  cancel : ∀ id : Uuid, Incidental R (Job.cancelPending id)

theorem incidental_cancelPending [Indifferent R Job] (id : Uuid) :
    Incidental R (Job.cancelPending id) :=
  .bind .now fun _ => .bind (incidental_updateWhere _ _) fun _ => .pure _

instance [Indifferent R Job] : Cancels R := ⟨incidental_cancelPending⟩

/-! ## Enrollments -/

theorem incidental_auditEnrollment {e : Enrollment} {action : String} {before : Option Fields}
    {actor : Value} (h : action ≠ "workflow.blocked") :
    Incidental R (e.audit action before actor) :=
  incidental_note (by decide) (.inl h)

section Enrollments
variable [Indifferent R Enrollment]

theorem incidental_scheduleStep [Schedules R] (e : Enrollment) (runAt : Calendar.Instant) :
    Incidental R (e.scheduleStep runAt) :=
  .bind (Schedules.schedule _) fun _ => .bind (incidental_store _) fun _ => .pure _

theorem incidental_openEnrollmentStep [Schedules R] (e : Enrollment) (s : CadenceStep)
    (start : Calendar.Instant) : Incidental R (e.openStep s start) :=
  .bind (.inTime passed _) fun _ => incidental_scheduleStep e _

theorem incidental_enroll [Schedules R] (cadence record : Uuid) (enrolledBy : Value) :
    Incidental R (Enrollment.enroll cadence record enrolledBy) := by
  unfold Enrollment.enroll
  refine .bind (.fetch passed Cadence cadence) fun c => .guarded rfl ?_
  refine .bind (.valid passed _) fun steps => ?_
  cases steps with
  | nil => exact .throw rfl
  | cons first rest =>
    refine .bind (.all Enrollment) fun live => .guarded rfl (.bind .now fun t => ?_)
    refine .bind (incidental_insertTaken _ _) fun e => ?_
    refine .bind (incidental_openEnrollmentStep e first _) fun opened => ?_
    exact .bind (incidental_auditEnrollment (by decide)) fun _ => .pure _

theorem incidental_halt [Cancels R] (e : Enrollment) (reason : String) (actor : Option String) :
    Incidental R (e.halt reason actor) := by
  unfold Enrollment.halt
  have rest : Incidental R (do
      store (e.stop reason)
      (e.stop reason).audit "cadence.stopped" (some e.state) (.ofOption actor)) :=
    .bind (incidental_store _) fun _ => incidental_auditEnrollment (by decide)
  split
  · exact .bind (Cancels.cancel _) fun _ => rest
  · exact rest

theorem incidental_unenroll [Cancels R] (record : Uuid) (cadence : Option Uuid) (reason : String)
    (actor : Option String) : Incidental R (Enrollment.unenroll record cadence reason actor) := by
  unfold Enrollment.unenroll
  refine .bind (.all Enrollment) fun rows => .bind (.forIn _ (fun e _ => ?_) _ _) fun _ => .pure _
  exact .bind (incidental_halt e reason actor) fun _ => .pure _

theorem incidental_pause (id : Uuid) (actor : Option String) :
    Incidental R (Enrollment.pause id actor) := by
  unfold Enrollment.pause
  refine .bind (.fetch passed Enrollment id) fun e => .guarded rfl ?_
  refine .bind (incidental_store _) fun _ => ?_
  exact .bind (incidental_auditEnrollment (by decide)) fun _ => .pure _

theorem incidental_resume [Schedules R] (id : Uuid) (actor : Option String) :
    Incidental R (Enrollment.resume id actor) := by
  unfold Enrollment.resume
  refine .bind (.fetch passed Enrollment id) fun e => .guarded rfl ?_
  refine .bind (.fetch passed Cadence _) fun c => .bind (.valid passed _) fun steps => ?_
  refine .bind .moment fun m => ?_
  have audited (resumed : Enrollment) : Incidental R (do
      resumed.audit "cadence.resumed" (some e.state) (.ofOption actor)
      return resumed) :=
    .bind (incidental_auditEnrollment (by decide)) fun _ => .pure _
  refine .ite (.bind (incidental_store _) fun _ => audited _) ?_
  refine .bind (.stepAt passed _ _) fun _ => ?_
  exact .bind (incidental_scheduleStep _ _) fun resumed => audited resumed

end Enrollments

/-! ## Parts of runs -/

omit [Lenient R] in
theorem incidentalIn_lift {part : Flow α} (h : Incidental R part) :
    IncidentalIn R (liftM part : Scoped α) := fun f => by
  cases hp : part f.world with
  | ok a w => exact .of_ok (lift_ok hp) ⟨h.ok hp, rfl⟩
  | error e w => exact .of_error (lift_error hp) ⟨(h.error hp).1, (h.error hp).2, rfl⟩

theorem incidentalIn_context : IncidentalIn R context := .read fun _ => ⟨_, rfl⟩

theorem incidentalIn_chooseOwner [Indifferent R AssignmentRule] (rule : Option Uuid)
    (strategy : Option Strategy) (user : Option String) :
    IncidentalIn R (Action.chooseOwner rule strategy user) := by
  unfold Action.chooseOwner
  refine .bind incidentalIn_context fun c => ?_
  split
  · exact .bind (incidentalIn_lift (.readable passed _)) fun _ => .pure _
  · exact .bind (incidentalIn_lift (incidental_resolveAssignment _ _ _)) fun _ => .pure _
  · exact .throw rfl

theorem incidentalIn_addChild [Indifferent R Child] (d : Record.ChildDraft) :
    IncidentalIn R (Action.addChild d) := by
  unfold Action.addChild
  refine .bind incidentalIn_context fun c => .ite (.pure _) ?_
  exact .bind (incidentalIn_lift (incidental_createChild _ _)) fun _ => .pure _

theorem incidentalIn_readable (v : Except BadNumeral α) :
    IncidentalIn R (liftM (readable v) : Scoped α) :=
  incidentalIn_lift (.readable passed v)

theorem incidentalIn_createTask [Indifferent R Child] (d : TaskDraft) :
    IncidentalIn R (Action.createTask d) := by
  unfold Action.createTask
  refine .bind incidentalIn_context fun c => .bind (incidentalIn_readable _) fun title => ?_
  refine .bind (incidentalIn_readable _) fun body => .bind (incidentalIn_readable _) fun assignedTo => ?_
  refine .bind (incidentalIn_lift .moment) fun m => ?_
  exact .bind (incidentalIn_lift (.inTime passed _)) fun due => incidentalIn_addChild _

theorem incidentalIn_createActivity [Indifferent R Child] (d : ActivityDraft) :
    IncidentalIn R (Action.createActivity d) := by
  unfold Action.createActivity
  refine .bind incidentalIn_context fun c => .bind (incidentalIn_lift .moment) fun m => ?_
  refine .bind (incidentalIn_lift (.inTime passed _)) fun due => ?_
  refine .bind (incidentalIn_readable _) fun title => ?_
  refine .bind (incidentalIn_readable _) fun body => .bind (incidentalIn_readable _) fun assignedTo => ?_
  exact incidentalIn_addChild _

theorem incidentalIn_addNote [Indifferent R Child] (body : String) (isPinned : Bool) :
    IncidentalIn R (Action.addNote body isPinned) :=
  .bind incidentalIn_context fun _ => .bind (incidentalIn_readable _) fun _ => incidentalIn_addChild _

theorem incidentalIn_draftEnrollment [Indifferent R Child] (d : EnrollmentDraft) :
    IncidentalIn R (Action.draftEnrollment d) := by
  unfold Action.draftEnrollment
  exact .guarded rfl (.bind incidentalIn_context fun _ => incidentalIn_addChild _)

section Messages
variable [Indifferent R Message]

theorem incidental_notifyAll (subject : String) (body href : Option String) (record : Uuid)
    (recipients : List Value) :
    Incidental R (Action.notifyAll subject body href record recipients) := by
  induction recipients with
  | nil => exact .pure _
  | cons recipient rest ih =>
    unfold Action.notifyAll
    refine .bind (incidental_dispatch _ _) fun answer => ?_
    cases answer with
    | refused error => exact .throw rfl
    | sent message => exact .bind ih fun _ => .pure _

theorem incidentalIn_notify (n : Notice) : IncidentalIn R (Action.notify n) := by
  unfold Action.notify
  refine .bind incidentalIn_context fun c => .bind (incidentalIn_readable _) fun users => ?_
  refine .bind (incidentalIn_readable _) fun title => .bind (incidentalIn_readable _) fun body => ?_
  refine .ite (.pure _) (.guarded rfl ?_)
  exact .bind (incidentalIn_lift (incidental_notifyAll _ _ _ _ _)) fun _ => .pure _

theorem incidentalIn_sendMessage (kind channel : String) (r : MessageRequest) :
    IncidentalIn R (Action.sendMessage kind channel r) := by
  unfold Action.sendMessage
  refine .bind incidentalIn_context fun c => .ite (.pure _) (.guarded rfl ?_)
  refine .bind (incidentalIn_lift (incidental_dispatch _ _)) fun answer => ?_
  cases answer with
  | refused error => exact .throw rfl
  | sent message => exact .pure _

theorem incidentalIn_sendEmail (d : EmailDraft) : IncidentalIn R (Action.sendEmail d) := by
  unfold Action.sendEmail
  refine .bind incidentalIn_context fun c => .bind (incidentalIn_readable _) fun to_ => ?_
  refine .bind (incidentalIn_readable _) fun subject => .bind (incidentalIn_readable _) fun body => ?_
  exact incidentalIn_sendMessage _ _ _

theorem incidentalIn_sendSms (d : SmsDraft) : IncidentalIn R (Action.sendSms d) := by
  unfold Action.sendSms
  refine .bind incidentalIn_context fun c => .bind (incidentalIn_readable _) fun to_ => ?_
  exact .bind (incidentalIn_readable _) fun body => incidentalIn_sendMessage _ _ _

end Messages

section Cadences
variable [Indifferent R Enrollment]

theorem incidentalIn_startCadence [Schedules R] (cadence : Uuid) :
    IncidentalIn R (Action.startCadence cadence) := by
  unfold Action.startCadence
  refine .bind incidentalIn_context fun c => .ite (.pure _) ?_
  refine .bind (incidentalIn_lift .wiring) fun wiring => .guarded rfl ?_
  exact .bind (incidentalIn_lift (incidental_enroll _ _ _)) fun _ => .pure _

theorem incidentalIn_stopCadence [Cancels R] (cadence : Option Uuid) :
    IncidentalIn R (Action.stopCadence cadence) := by
  unfold Action.stopCadence
  refine .bind incidentalIn_context fun c => .ite (.pure _) ?_
  refine .bind (incidentalIn_lift .wiring) fun wiring => .guarded rfl ?_
  exact .bind (incidentalIn_lift (incidental_unenroll _ _ _ _)) fun _ => .pure _

end Cadences

/-- A delay that has no end fails by the time, a number or its configuration. -/
theorem isLimit_due {d : Delay} {now : Calendar.Moment} {context : Value} {e : Failure}
    (h : d.due now context = .error e) : e.isLimit = false := by
  have timely {γ : Type} {v : Except Calendar.OutOfRange γ} {e : Failure}
      (h : timely v = .error e) : e.isLimit = false := by
    cases v with
    | ok a => cases h
    | error cause => cases h; rfl
  have anchored {e : Failure} (h : d.anchor context = .error e) : e.isLimit = false := by
    unfold Delay.anchor at h
    split at h
    · cases h; rfl
    · split at h
      · cases h
      · cases h; rfl
  unfold Delay.due at h
  cases hs : RecordFlow.timely (Calendar.seconds? d.totalSeconds) with
  | error cause =>
    rw [hs] at h
    cases h
    exact timely hs
  | ok span =>
    rw [hs] at h
    by_cases hr : d.isRelative = true
    · cases ha : d.anchor context with
      | error cause =>
        simp only [hr, ha] at h
        cases h
        exact anchored ha
      | ok start =>
        simp only [hr, ha] at h
        exact timely h
    · simp only [hr] at h
      exact timely h

theorem incidentalIn_delayWait [Schedules R] (d : Delay) : IncidentalIn R (Action.delayWait d) := by
  unfold Action.delayWait
  refine .bind incidentalIn_context fun c => .bind (incidentalIn_lift .moment) fun m => ?_
  refine .bind (incidentalIn_lift (.orThrow passed _ fun e => isLimit_due)) fun due => ?_
  refine .ite (.pure _) (.bind (incidentalIn_lift .wiring) fun wiring => .guarded rfl ?_)
  exact .bind (incidentalIn_lift (Schedules.schedule _)) fun _ => .pure _

theorem incidental_call (c : Call) : Incidental R (Action.call c) := by
  unfold Action.call
  refine .bind (.modify fun w => ?_) fun _ => .bind .get fun w => ?_
  · exact Outside.unnoted ⟨rfl, rfl, rfl, Nat.le_refl _, rfl, rfl, rfl, List.prefix_rfl⟩ rfl
  · split
    · exact .pure _
    · refine .bind (.modify fun w => ?_) fun _ => .pure _
      exact Outside.unnoted ⟨rfl, rfl, rfl, Nat.le_refl _, rfl, rfl, rfl, List.prefix_rfl⟩ rfl

theorem incidentalIn_postWebhook [Schedules R] (a : Action) (w : Webhook) :
    IncidentalIn R (Action.postWebhook a w) := by
  unfold Action.postWebhook
  refine .bind incidentalIn_context fun c => .bind (incidentalIn_readable _) fun body => ?_
  refine .ite (.pure _) (.bind (incidentalIn_lift .settings) fun settings => ?_)
  refine .bind (incidentalIn_lift (incidental_call _)) fun reply => ?_
  refine .bind (incidentalIn_lift .wiring) fun wiring => .ite ?_ (.pure _)
  exact .bind (incidentalIn_lift (Schedules.schedule _)) fun _ => .pure _

end RecordFlow
