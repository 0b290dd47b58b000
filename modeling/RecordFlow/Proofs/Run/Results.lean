import RecordFlow.Proofs.Job.Queue

/-! # The results of a run

A run has a result for each of its first actions, in their order, and none for the others. It stops
after a failure where it halts at failures, after a delay that was granted, where the budget is used
up, and else at the end. This holds of every run, whatever follows upon its writes.
-/
namespace RecordFlow
open RecordFlow.Flow Scoped

namespace Action
variable {react : Reaction}

/-! ## Which results end a run -/

def GoesOn (e : Effect) : Prop := e.endsRun = false ∧ e.delayedJob = none

theorem goesOn_planned (output : Fields) : GoesOn (.planned output) := ⟨rfl, rfl⟩

theorem goesOn_unchanged (output : Fields) : GoesOn (.unchanged output) := ⟨rfl, rfl⟩

theorem goesOn_leaving (output : Fields) (sideEffect : String) :
    GoesOn (.leaving output sideEffect) := ⟨rfl, rfl⟩

theorem goesOn_report (output : Fields) : GoesOn (.report output) := ⟨rfl, rfl⟩

theorem addChild_goesOn (d : Record.ChildDraft) : Gives (addChild d) GoesOn := by
  unfold addChild
  exact .bind fun c => .ite (.pure (goesOn_planned _)) (.bind fun _ => .pure (goesOn_leaving _ _))

theorem updateFields_goesOn (fields : Fields) : Gives (updateFields react fields) GoesOn := by
  unfold updateFields
  refine .bind fun c => .bind fun changes => .bind fun before => ?_
  exact .ite (.pure (goesOn_planned _)) (.bind fun _ => .pure (goesOn_leaving _ _))

theorem moveStage_goesOn (stage : String) : Gives (moveStage react stage) GoesOn := by
  unfold moveStage
  refine .bind fun c => .ite (.pure (goesOn_unchanged _)) (.ite (.pure (goesOn_planned _)) ?_)
  exact .bind fun _ => .pure (goesOn_leaving _ _)

theorem assignOwner_goesOn (rule : Option Uuid) (strategy : Option Strategy) (user : Option String) :
    Gives (assignOwner react rule strategy user) GoesOn := by
  unfold assignOwner
  refine .bind fun c => .bind fun choice => .ite (.pure (goesOn_planned _)) ?_
  refine .ite (.pure (goesOn_report _)) (.ite (.pure (goesOn_unchanged _)) ?_)
  exact .bind fun _ => .bind fun _ => .bind fun _ => .pure (goesOn_leaving _ _)

theorem notify_goesOn (n : Notice) : Gives (notify n) GoesOn := by
  unfold notify
  refine .bind fun c => .bind fun users => .bind fun title => .bind fun body => ?_
  refine .ite (.pure (goesOn_planned _)) (.guarded (.bind fun messages => .pure ?_))
  exact ⟨rfl, rfl⟩

theorem sendMessage_goesOn (kind channel : String) (r : MessageRequest) :
    Gives (sendMessage kind channel r) GoesOn := by
  unfold sendMessage
  refine .bind fun c => .ite (.pure (goesOn_planned _)) (.guarded (.bind fun answer => ?_))
  cases answer with
  | refused error => exact .throw
  | sent message => exact .pure (goesOn_leaving _ _)

theorem startCadence_goesOn (cadence : Uuid) : Gives (startCadence cadence) GoesOn := by
  unfold startCadence
  refine .bind fun c => .ite (.pure (goesOn_planned _)) (.bind fun wiring => .guarded ?_)
  exact .bind fun _ => .pure (goesOn_leaving _ _)

theorem stopCadence_goesOn (cadence : Option Uuid) : Gives (stopCadence cadence) GoesOn := by
  unfold stopCadence
  refine .bind fun c => .ite (.pure (goesOn_planned _)) (.bind fun wiring => .guarded ?_)
  exact .bind fun _ => .pure (goesOn_report _)

theorem postWebhook_goesOn (a : Action) (w : Webhook) : Gives (postWebhook a w) GoesOn := by
  unfold postWebhook
  refine .bind fun c => .bind fun body => .ite (.pure (goesOn_planned _)) (.bind fun settings => ?_)
  refine .bind fun reply => .bind fun wiring => .ite (.bind fun job => .pure ?_) (.pure ?_)
  · exact ⟨rfl, rfl⟩
  · exact ⟨rfl, rfl⟩

theorem draftEnrollment_goesOn (d : EnrollmentDraft) : Gives (draftEnrollment d) GoesOn := by
  unfold draftEnrollment
  exact .guarded (.bind fun c => addChild_goesOn _)

/-- A run goes on after an action of another type than a delay. -/
theorem carryOut_goesOn {a : Action} (h : a.kind ≠ "delay_wait") :
    Gives (carryOut react a) GoesOn := by
  obtain ⟨id, condition, operation⟩ := a
  cases operation with
  | updateFields fields => exact updateFields_goesOn fields
  | assignOwner rule strategy user => exact assignOwner_goesOn rule strategy user
  | createTask d =>
    exact .bind fun c => .bind fun title => .bind fun body => .bind fun assignedTo =>
      .bind fun m => .bind fun due => addChild_goesOn _
  | createActivity d =>
    exact .bind fun c => .bind fun m => .bind fun due => .bind fun title => .bind fun body =>
      .bind fun assignedTo => addChild_goesOn _
  | addNote body isPinned => exact .bind fun c => .bind fun body => addChild_goesOn _
  | notify n => exact notify_goesOn n
  | moveStage stage => exact moveStage_goesOn stage
  | startCadence cadence => exact startCadence_goesOn cadence
  | stopCadence cadence => exact stopCadence_goesOn cadence
  | draftEnrollment d => exact draftEnrollment_goesOn d
  | sendEmail d =>
    exact .bind fun c => .bind fun to_ => .bind fun subject => .bind fun body =>
      sendMessage_goesOn _ _ _
  | sendSms d =>
    exact .bind fun c => .bind fun to_ => .bind fun body => sendMessage_goesOn _ _ _
  | delayWait d => exact absurd rfl h
  | postWebhook w => exact postWebhook_goesOn _ w

/-! ## Delays -/

/-- What a job is told that goes on with a run: where the run stood, and the actions it has left. -/
def delayPayload (c : Context) : Value :=
  .obj (Fields.putAll (origin c) [
    ("source", .str c.source),
    ("actions", encodeActions c.pending),
    ("depth", .int c.depth)])

end Action

structure Job.Continues (j : Job) (c : Context) : Prop where
  kind : j.kind = delayKind
  payload : j.payload = Action.delayPayload c

namespace Action

/-- What a delay that was granted leaves behind: a job that goes on with the run, unless it is a
trial run. -/
structure Delays (f : Frame) (e : Effect) (g : Frame) : Prop where
  endsRun : e.endsRun = true
  error : e.error = none
  context : g.context = f.context
  job : ∀ id, e.delayedJob = some id → ∃ j ∈ g.world.tables.jobs, j.id = id ∧ j.Continues f.context
  planned : e.delayedJob = none → Fields.get? e.output "dry_run" = some (.bool true)

theorem delayWait_yields (d : Delay) (f : Frame) : Yields (delayWait d) f (Delays f) := by
  unfold delayWait
  refine .step (context_eq f) (.step (lift_ok rfl) ?_)
  cases hdue : d.due f.world.clock f.context.record.context with
  | error cause => exact Ends.of_error (bind_error (lift_error rfl) _) trivial
  | ok due =>
    refine .step (lift_ok rfl) ?_
    dsimp only
    split
    · exact .pure ⟨rfl, rfl, rfl, nofun, fun _ => Fields.get?_put_self _ _ _⟩
    · refine .step (lift_ok rfl) (.guarded fun _ => ?_)
      refine Yields.bind (.lift (Job.add_ends _ f.world).yields) ?_
      rintro j g ⟨hj, hcontext⟩
      have member : j ∈ g.world.tables.jobs := by
        rw [hj.world]
        exact List.mem_append_right _ (List.mem_singleton.mpr rfl)
      refine .pure ⟨rfl, rfl, hcontext, ?_, nofun⟩
      intro id hid
      exact ⟨j, member, Option.some.inj hid, hj.kind, hj.payload⟩

theorem carryOut_delays {a : Action} (h : a.kind = "delay_wait") (f : Frame) :
    Yields (carryOut react a) f (Delays f) := by
  obtain ⟨id, condition, operation⟩ := a
  cases operation with
  | delayWait d => exact delayWait_yields d f
  | _ => exact absurd h (by simp [kind, Operation.kind])

end Action

namespace ActionResult

def isGrantedDelay (r : ActionResult) : Bool := r.kind = "delay_wait" && r.status = .success

/-- Whether a run stops after this result: at a failure, if it halts at failures, and at a delay. -/
def isFinal (halts : Bool) (r : ActionResult) : Bool :=
  r.status = .failed && halts || r.isGrantedDelay

/-- What the result of an action tells, in the frame that the action leaves: it ends the run if it is
that of a delay that was granted, and then names the job that goes on with the run. -/
structure Sound (a : Action) (r : ActionResult) (f : Frame) : Prop where
  isOf : r.IsOf a
  endsRun : r.endsRun = r.isGrantedDelay
  ends : r.delayedJob.isSome → r.isGrantedDelay = true
  job : ∀ id, r.delayedJob = some id → ∃ j ∈ f.world.tables.jobs, j.id = id ∧ j.Continues f.context
  planned : r.isGrantedDelay = true →
    r.delayedJob.isSome ∨ Fields.get? r.output "dry_run" = some (.bool true)

theorem Sound.congr {a : Action} {r : ActionResult} {f g : Frame} (h : r.Sound a f)
    (hjobs : g.world.tables.jobs = f.world.tables.jobs) (hcontext : g.context = f.context) :
    r.Sound a g :=
  ⟨h.isOf, h.endsRun, h.ends, by rw [hjobs, hcontext]; exact h.job, h.planned⟩

theorem Sound.of_goesOn {a : Action} {r : ActionResult} {f : Frame} (hof : r.IsOf a)
    (hends : r.endsRun = false) (hjob : r.delayedJob = none) (hdelay : r.isGrantedDelay = false) :
    r.Sound a f where
  isOf := hof
  endsRun := hends.trans hdelay.symm
  ends h := by
    rw [hjob] at h
    cases h
  job id h := by
    rw [hjob] at h
    cases h
  planned h := by
    rw [hdelay] at h
    cases h

end ActionResult

namespace Action
open ActionResult

theorem sound_passedOver (a : Action) (f : Frame) : (ActionResult.passedOver a).Sound a f :=
  .of_goesOn ⟨rfl, rfl⟩ rfl rfl (by simp [isGrantedDelay, ActionResult.passedOver])

theorem sound_brokenOff (a : Action) (cause : Failure) (f : Frame) :
    (ActionResult.brokenOff a cause).Sound a f :=
  .of_goesOn ⟨rfl, rfl⟩ rfl rfl (by simp [isGrantedDelay, ActionResult.brokenOff])

theorem carryOut_sound (a : Action) (f : Frame) : Yields (carryOut react a) f fun e g =>
    (e.result a).Sound a g ∧ ((e.result a).isGrantedDelay = true → g.context = f.context) := by
  by_cases hkind : a.kind = "delay_wait"
  · refine (carryOut_delays hkind f).mono fun e g he => ⟨?_, fun _ => he.context⟩
    have granted : (e.result a).isGrantedDelay = true := by
      simp [isGrantedDelay, Effect.result, hkind, he.error]
    refine ⟨⟨rfl, rfl⟩, he.endsRun.trans granted.symm, fun _ => granted, ?_, fun _ => ?_⟩
    · exact he.context ▸ he.job
    · cases hjob : e.delayedJob with
      | none => exact .inr (he.planned hjob)
      | some id => exact .inl (by rw [Effect.result, hjob]; rfl)
  · have other (e : Effect) : (e.result a).isGrantedDelay = false := by
      simp [isGrantedDelay, Effect.result, hkind]
    refine (carryOut_goesOn hkind f).mono fun e g he => ⟨?_, fun hdelay => ?_⟩
    · exact .of_goesOn ⟨rfl, rfl⟩ he.1 he.2 (other e)
    · rw [other e] at hdelay
      cases hdelay

/-- Every action has a result, unless there is no budget for it. -/
theorem attempt_sound (react : Reaction) (a : Action) (f : Frame) :
    Ends (attempt react a) f
      (fun r g => r.Sound a g ∧ (r.isGrantedDelay = true → g.context.pending = f.context.pending))
      fun e _ => e.isLimit = true := by
  unfold attempt
  cases hc : f.context.budget.consume a.kind with
  | error l => exact .of_error (bind_error (consume_error hc) _) rfl
  | ok b =>
    refine .step (consume_ok hc) ?_
    refine (orFailure_ends (carryOut_sound a _)).bind (fun _ _ h => h.1) fun r g _ hr => ?_
    cases r with
    | ok effect => exact .pure ⟨hr.1, fun hdelay => by rw [hr.2 hdelay]⟩
    | error cause =>
      refine .of_ok rfl ⟨sound_brokenOff a cause _, fun hdelay => ?_⟩
      simp [isGrantedDelay, ActionResult.brokenOff] at hdelay

theorem perform_sound (react : Reaction) (a : Action) (f : Frame) :
    Ends (perform react a) f
      (fun r g => r.Sound a g ∧ (r.isGrantedDelay = true → g.context.pending = f.context.pending))
      fun e _ => e.isLimit = true :=
  perform_of_attempt ⟨sound_passedOver a f, fun _ => rfl⟩ (attempt_sound react a f)
    fun _ _ _ hr => ⟨{ hr.1 with }, hr.2⟩

/-- The results are of the first actions, one for each and in their order, and only the last may be
one at which a run stops; the other actions are left. -/
structure Covered (halts : Bool) (actions : List Action) (results : List ActionResult)
    (left : List Action) : Prop where
  split : ∃ done, actions = done ++ left ∧ List.Forall₂ ActionResult.IsOf results done
  going : ∀ r ∈ results.dropLast, r.isFinal halts = false

namespace Covered
variable {halts : Bool} {actions left : List Action} {results : List ActionResult}
variable {a : Action} {r : ActionResult}

theorem none (halts : Bool) (actions : List Action) : Covered halts actions [] actions :=
  ⟨⟨[], rfl, .nil⟩, by simp⟩

theorem one (halts : Bool) (h : r.IsOf a) (rest : List Action) : Covered halts (a :: rest) [r] rest :=
  ⟨⟨[a], rfl, .cons h .nil⟩, by simp⟩

theorem cons (h : r.IsOf a) (hgoing : r.isFinal halts = false)
    (hrest : Covered halts actions results left) : Covered halts (a :: actions) (r :: results) left where
  split := by
    obtain ⟨done, hsplit, hdone⟩ := hrest.split
    exact ⟨a :: done, by rw [hsplit, List.cons_append], .cons h hdone⟩
  going s hs := by
    cases results with
    | nil => simp at hs
    | cons t more =>
      rw [List.dropLast_cons_cons] at hs
      rcases List.mem_cons.mp hs with rfl | hs
      · exact hgoing
      · exact hrest.going s hs

end Covered

end Action

namespace Run

/-- How a run ended that has these results, and what it left to a job: it met the limit of its budget
before one of the actions that are left, or it stopped, or nothing is left. -/
structure Ended (halts : Bool) (results : List ActionResult) (left : List Action)
    (status : RunStatus) (delayed : Option Uuid) (f : Frame) : Prop where
  capped : status = .capped → left ≠ [] ∧ ∀ r ∈ results, r.isFinal halts = false
  uncapped : status ≠ .capped →
    left = [] ∨ ∃ r, results.getLast? = some r ∧ r.isFinal halts = true
  handed : ∀ r, results.getLast? = some r → r.isGrantedDelay = true →
    delayed.isSome ∨ Fields.get? r.output "dry_run" = some (.bool true)
  job : ∀ id, delayed = some id →
    (∃ r, results.getLast? = some r ∧ r.isGrantedDelay = true)
      ∧ ∃ j ∈ f.world.tables.jobs, j.id = id ∧ j.Continues f.context ∧ f.context.pending = left

namespace Ended
variable {halts : Bool} {results : List ActionResult} {left : List Action} {status : RunStatus}
variable {delayed : Option Uuid} {f g : Frame} {r : ActionResult}

theorem done (hstatus : status ≠ .capped) : Ended halts [] [] status none f :=
  ⟨fun h => absurd h hstatus, fun _ => .inl rfl, nofun, nofun⟩

theorem refused {a : Action} {rest : List Action} : Ended halts [] (a :: rest) .capped none f :=
  ⟨fun _ => ⟨List.cons_ne_nil _ _, by simp⟩, fun h => absurd rfl h, nofun, nofun⟩

theorem failed (hstatus : status ≠ .capped) (hr : r.status = .failed) (hhalts : halts = true) :
    Ended halts [r] left status none f := by
  have undelayed : r.isGrantedDelay = false := by simp [ActionResult.isGrantedDelay, hr]
  refine ⟨fun h => absurd h hstatus, fun _ => .inr ⟨r, rfl, ?_⟩, fun s hs hdelay => ?_, nofun⟩
  · simp [ActionResult.isFinal, hr, hhalts]
  · obtain rfl : r = s := Option.some.inj hs
    rw [undelayed] at hdelay
    cases hdelay

theorem granted {a : Action} (hstatus : status ≠ .capped) (hr : r.Sound a f)
    (hdelay : r.isGrantedDelay = true) (hleft : f.context.pending = left) :
    Ended halts [r] left status r.delayedJob f := by
  refine ⟨fun h => absurd h hstatus, fun _ => .inr ⟨r, rfl, ?_⟩, fun s hs _ => ?_, fun id hid => ?_⟩
  · simp [ActionResult.isFinal, hdelay]
  · obtain rfl : r = s := Option.some.inj hs
    exact hr.planned hdelay
  · obtain ⟨j, hj, hjid, hcontinues⟩ := hr.job id hid
    exact ⟨⟨r, rfl, hdelay⟩, j, hj, hjid, hcontinues, hleft⟩

theorem cons (hgoing : r.isFinal halts = false) (h : Ended halts results left status delayed f) :
    Ended halts (r :: results) left status delayed f := by
  have undelayed : r.isGrantedDelay = false := by
    unfold ActionResult.isFinal at hgoing
    exact (Bool.or_eq_false_iff.mp hgoing).2
  refine ⟨fun hcapped => ?_, fun hstatus => ?_, fun s hs hdelay => ?_, fun id hid => ?_⟩
  · obtain ⟨hleft, hall⟩ := h.capped hcapped
    refine ⟨hleft, fun s hs => ?_⟩
    rcases List.mem_cons.mp hs with rfl | hs
    · exact hgoing
    · exact hall s hs
  · rcases h.uncapped hstatus with hleft | ⟨s, hs, hfinal⟩
    · exact .inl hleft
    · exact .inr ⟨s, by rw [List.getLast?_cons, hs, Option.getD_some], hfinal⟩
  · rw [List.getLast?_cons] at hs
    cases hlast : results.getLast? with
    | none =>
      rw [hlast] at hs
      obtain rfl : r = s := Option.some.inj hs
      rw [undelayed] at hdelay
      cases hdelay
    | some t =>
      rw [hlast] at hs
      obtain rfl : t = s := Option.some.inj hs
      exact h.handed t hlast hdelay
  · obtain ⟨⟨s, hs, hdelay⟩, hjob⟩ := h.job id hid
    exact ⟨⟨s, by rw [List.getLast?_cons, hs, Option.getD_some], hdelay⟩, hjob⟩

/-- A run that met the limit has no job that goes on with it. -/
theorem undelayed (h : Ended halts results left status delayed f) (hstatus : status = .capped) :
    delayed = none := by
  cases hid : delayed with
  | none => rfl
  | some id =>
    obtain ⟨⟨r, hr, hdelay⟩, -⟩ := h.job id hid
    have going := (h.capped hstatus).2 r (List.mem_of_getLast? hr)
    simp [ActionResult.isFinal, hdelay] at going

theorem congr (h : Ended halts results left status delayed f)
    (hjobs : g.world.tables.jobs = f.world.tables.jobs) (hcontext : g.context = f.context) :
    Ended halts results left status delayed g :=
  ⟨h.capped, h.uncapped, h.handed, by rw [hjobs, hcontext]; exact h.job⟩

end Ended

def Entered (id : Uuid) (results : List ActionResult) (w : World) : Prop :=
  w.saved = w.tables ∧ ∃ row ∈ w.tables.runs, row.id = id ∧ row.executed = ActionResult.encodeAll results

theorem RowSaved.entered {id : Uuid} {change : Run → Run} {w v : World} {notes : List AuditEntry}
    {results : List ActionResult} (h : RowSaved id change w v notes) (hopen : IsOpen id w)
    (hresults : ∀ r, (change r).executed = ActionResult.encodeAll results)
    (hid : ∀ r, (change r).id = r.id) : v.tables.jobs = w.tables.jobs ∧ Entered id results v := by
  refine ⟨by rw [h.rows]; rfl, h.saved, ?_⟩
  obtain ⟨row, hrow, rfl⟩ := hopen
  refine ⟨change row, ?_, hid row, hresults row⟩
  rw [h.rows]
  exact List.mem_map.mpr ⟨row, hrow, if_pos rfl⟩

/-- Without its row a run cannot go on. -/
theorem fetch_closed {id : Uuid} {w : World} {α : Type} {rest : Run → Flow α} (h : ¬ IsOpen id w)
    {ok : α → World → Prop} : Ends (fetch Run id >>= rest) w ok fun e _ => e.isLimit = false := by
  refine (fetch_ends id w).bind (fun _ _ h => h.2) ?_
  rintro r _ - ⟨rfl, hfound⟩
  exact absurd ⟨r, List.mem_of_find?_eq_some hfound, id_of_find? hfound⟩ h

theorem checkpoint_enters (id : Uuid) (executed : List ActionResult) (consumed : Int) (w : World) :
    Ends (checkpoint id executed consumed) w
      (fun _ v => v.tables.jobs = w.tables.jobs ∧ Entered id executed v)
      fun e _ => e.isLimit = false := by
  by_cases hopen : IsOpen id w
  · obtain ⟨v, hv, hsaved⟩ := checkpoint_ends hopen executed consumed
    exact .of_ok hv (hsaved.entered hopen (fun _ => rfl) fun _ => rfl)
  · exact fetch_closed hopen

theorem finish_enters (id : Uuid) (before : Int) (p : Progress) (c : Context) (w : World) :
    Ends (finish id before p c) w
      (fun _ v => v.tables.jobs = w.tables.jobs ∧ Entered id p.executed v)
      fun e _ => e.isLimit = false := by
  by_cases hopen : IsOpen id w
  · obtain ⟨v, e, hv, -, hsaved⟩ := finish_ends hopen before p c
    exact .of_ok hv (hsaved.entered hopen (fun _ => rfl) fun _ => rfl)
  · exact fetch_closed hopen

structure Uncapped (p : Progress) : Prop where
  limit : p.limit = none
  status : p.status ≠ .capped
  delayed : p.delayedJob = none

theorem Uncapped.add {p : Progress} (h : Uncapped p) (r : ActionResult) : Uncapped (p.add r) := by
  unfold Progress.add
  dsimp only
  split
  · exact ⟨h.limit, RunStatus.noConfusion, h.delayed⟩
  · exact ⟨h.limit, h.status, h.delayed⟩

theorem performFrom_covers (react : Reaction) (run : Uuid) (taken : Int) (halts : Bool)
    (actions : List Action) (p : Progress) (hp : Uncapped p) (f : Frame) :
    Ends (performFrom react run taken halts actions p) f
      (fun q g => ∃ results left, q.executed = p.executed ++ results
        ∧ Action.Covered halts actions results left
        ∧ Ended halts results left q.status q.delayedJob g ∧ (q.limit.isSome → q.status = .capped))
      fun e _ => e.isLimit = false := by
  induction actions generalizing p f with
  | nil =>
    refine .pure ⟨[], [], (List.append_nil _).symm, .none halts [], ?_, ?_⟩
    · rw [hp.delayed]
      exact .done hp.status
    · rw [hp.limit]
      nofun
  | cons a rest ih =>
    unfold performFrom
    refine .step (a := ()) (t := before rest f) rfl ?_
    refine (Action.orLimit_ends (a.perform_sound react (before rest f))).bind ?_ fun answer g _ ha => ?_
    · exact fun e _ h => h.1
    cases answer with
    | error l =>
      refine .of_ok rfl ⟨[], a :: rest, (List.append_nil _).symm, .none halts _, ?_, fun _ => rfl⟩
      have undelayed : (p.cap (l.inRun run)).delayedJob = none := hp.delayed
      rw [undelayed]
      exact .refused
    | ok r =>
      obtain ⟨hr, hpending⟩ := ha
      have hadd := hp.add r
      refine .step (context_eq g) ?_
      refine (Ends.lift (checkpoint_enters run _ _ g.world)).bind (fun _ _ h => h) fun _ k _ hk => ?_
      obtain ⟨⟨hjobs, -⟩, hcontext⟩ := hk
      have hsound : r.Sound a k := hr.congr hjobs hcontext
      have hexecuted := p.executed_add r
      refine .ite (fun hfailed => .pure ?_) fun hgoing => .ite (fun hends => .pure ?_) fun hon => ?_
      · -- halted at a failure
        refine ⟨[r], rest, hexecuted, .one halts hr.isOf rest, ?_, fun h => ?_⟩
        · rw [hadd.delayed]
          exact .failed hadd.status hfailed.1 hfailed.2
        · rw [hadd.limit] at h
          cases h
      · -- handed over to a job
        have granted : r.isGrantedDelay = true := hr.endsRun.symm.trans hends
        have pending : k.context.pending = rest := by
          rw [hcontext, hpending granted]
          rfl
        refine ⟨[r], rest, hexecuted, .one halts hr.isOf rest, ?_, fun h => ?_⟩
        · exact .granted hadd.status hsound granted pending
        · have unlimited : ((p.add r).handOver r).limit = none := hadd.limit
          rw [unlimited] at h
          cases h
      · have going : r.isFinal halts = false := by
          have undelayed : r.isGrantedDelay = false := by
            rw [← hr.endsRun]
            simpa using hon
          simp only [ActionResult.isFinal, undelayed, Bool.or_false]
          simpa using hgoing
        refine (ih (p.add r) hadd k).mono ?_ fun _ _ h => h
        rintro q g' ⟨results, left, hq, hcovered, hended, hlimit⟩
        refine ⟨r :: results, left, p.executed_add_append hq, hcovered.cons hr.isOf going, ?_, hlimit⟩
        exact hended.cons going

/-- What a run entered in its row before it ended, or before the limit of the budget was passed on
from it. -/
def Enters (halts : Bool) (actions : List Action) (id : Uuid) (results : List ActionResult)
    (left : List Action) (status : RunStatus) (delayed : Option Uuid) (f : Frame) : Prop :=
  Entered id results f.world ∧ Action.Covered halts actions results left
    ∧ Ended halts results left status delayed f

theorem Enters.congr {halts : Bool} {actions left : List Action} {id : Uuid}
    {results : List ActionResult} {status : RunStatus} {delayed : Option Uuid} {f : Frame} {u : World}
    (h : Enters halts actions id results left status delayed f)
    (htables : u.tables = f.world.tables) (hsaved : u.saved = f.world.saved) :
    Enters halts actions id results left status delayed { f with world := u } := by
  refine ⟨?_, h.2.1, h.2.2.congr (congrArg Tables.jobs htables) rfl⟩
  unfold Entered
  dsimp only
  rw [htables, hsaved]
  exact h.1

theorem goThrough_enters (react : Reaction) (run : Uuid) (actions : List Action) (halts : Bool)
    (f : Frame) :
    Ends (goThrough react run actions halts) f
      (fun r g => r.run = some run
        ∧ ∃ left, Enters halts actions run r.executed left r.status r.delayedJob g)
      fun e g => e.isLimit = true →
        ∃ results left, Enters halts actions run results left .capped none g := by
  unfold goThrough
  refine .step (context_eq f) ?_
  refine (performFrom_covers react run _ halts actions .start ⟨rfl, nofun, rfl⟩ f).bind ?_ ?_
  · intro e g he hlimit
    rw [he] at hlimit
    cases hlimit
  rintro p g - ⟨results, left, rfl, hcovered, hended, hcapped⟩
  refine .step (context_eq g) ?_
  refine (Ends.lift (finish_enters run _ p g.context g.world)).bind ?_ ?_
  · intro e k he hlimit
    rw [he] at hlimit
    cases hlimit
  rintro - k - ⟨⟨hjobs, hentered⟩, hcontext⟩
  have enters : Enters halts actions run p.executed left p.status p.delayedJob k :=
    ⟨hentered, hcovered, hended.congr hjobs hcontext⟩
  cases hlimit : p.limit with
  | none => exact .pure ⟨rfl, left, enters⟩
  | some l =>
    have status : p.status = .capped := hcapped (by rw [hlimit]; rfl)
    have told (u : World) (htables : u.tables = k.world.tables) (hsaved : u.saved = k.world.saved) :
        Ends (do
            if g.context.parent.isSome then throw (.limit l)
            return result run p g.context : Scoped RunResult) { k with world := u }
          (fun r g => r.run = some run
            ∧ ∃ left, Enters halts actions run r.executed left r.status r.delayedJob g)
          fun e g => e.isLimit = true →
            ∃ results left, Enters halts actions run results left .capped none g := by
      have after := enters.congr htables hsaved
      split
      · refine .throw fun _ => ⟨p.executed, left, ?_⟩
        rwa [status, after.2.2.undelayed rfl] at after
      · exact .pure ⟨rfl, left, after⟩
    dsimp only
    split
    · obtain ⟨u, e, hu, -, htables, hsaved, -⟩ := tellLimit_ends l g.context k.world
      exact .step (lift_ok hu) (told u htables hsaved)
    · exact told k.world rfl rfl

/-- Whatever follows upon the writes of a run, it enters the results of its first actions, and has a
reason to stop where it does. -/
theorem runActions_enters (react : Reaction) (actions : List Action) (halts : Bool) (f : Frame) :
    Ends (runActions react actions halts) f
      (fun r g => ∃ id left, r.run = some id
        ∧ Enters halts actions id r.executed left r.status r.delayedJob g)
      fun e g => e.isLimit = true →
        ∃ id results left, Enters halts actions id results left .capped none g := by
  unfold runActions
  refine .step (context_eq f) ?_
  refine (Ends.lift (openRun_ends f.context f.world)).bind ?_ ?_
  · intro e g he hlimit
    rw [he.1] at hlimit
    cases hlimit
  intro row g _ _
  refine .step (a := ()) rfl (marked_ends (.refl ?_)).ends
  refine (goThrough_enters react row.id actions halts _).mono ?_ ?_
  · rintro r k ⟨hr, left, henters⟩ mark
    exact ⟨row.id, left, hr, henters.congr rfl rfl⟩
  · intro e k he mark hlimit
    obtain ⟨results, left, henters⟩ := he hlimit
    exact ⟨row.id, results, left, henters.congr rfl rfl⟩

end Run
end RecordFlow
