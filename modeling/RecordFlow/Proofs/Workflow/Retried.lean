import RecordFlow.Proofs.Run.Closing
import RecordFlow.Proofs.Run.Resumed

/-! # Calls that are tried again

A call that failed is handed to a job that tries it again. As long as the budget that it left has
room for it, the call goes out once more, no other job is scheduled, and the job succeeds if and
only if the answer does. The failed call may have used the budget up: then nothing goes out.
-/
namespace RecordFlow
open RecordFlow.Flow Scoped

/-! ## Calls -/

def World.nextReply (w : World) : Reply := w.replies.headD (.status 200)

def World.called (c : Call) (w : World) : World :=
  { w with
    journal := { w.journal with calls := w.journal.calls ++ [c] }
    replies := w.replies.tail }

def Reply.isSuccess : Reply → Bool
  | .status code => 200 ≤ code && code < 300
  | .unreachable _ => false

structure Uncalled (w v : World) : Prop where
  calls : v.journal.calls = w.journal.calls
  replies : v.replies = w.replies
  jobs : v.tables.jobs = w.tables.jobs

instance : IsPreorder World Uncalled where
  refl _ := ⟨rfl, rfl, rfl⟩
  trans _ _ _ h h' := ⟨h'.calls.trans h.calls, h'.replies.trans h.replies, h'.jobs.trans h.jobs⟩

structure CallsOnce (url : String) (w v : World) : Prop where
  calls : ∃ c : Call, c.url = url ∧ v.journal.calls = w.journal.calls ++ [c]
  jobs : v.tables.jobs = w.tables.jobs

namespace CallsOnce
variable {url : String} {w v u : World}

theorem after (hv : Uncalled w v) (h : CallsOnce url v u) : CallsOnce url w u where
  calls := by
    obtain ⟨c, hurl, hcalls⟩ := h.calls
    exact ⟨c, hurl, hv.calls ▸ hcalls⟩
  jobs := h.jobs.trans hv.jobs

theorem later (h : CallsOnce url w v) (hu : Uncalled v u) : CallsOnce url w u where
  calls := by
    obtain ⟨c, hurl, hcalls⟩ := h.calls
    exact ⟨c, hurl, hu.calls.trans hcalls⟩
  jobs := hu.jobs.trans h.jobs

end CallsOnce

namespace Action
variable {a : Action} {hook : Webhook} {f : Frame}

theorem call_eq (c : Call) (w : World) : call c w = .ok w.nextReply (w.called c) := by
  obtain ⟨saved, tables, numbers, journal, clock, settings, wiring, ambient, replies, rivals⟩ := w
  cases replies with
  | nil => rfl
  | cons reply rest => rfl

theorem callOutcome_error (r : Reply) : (callOutcome r).1.isNone = r.isSuccess := by
  cases r with
  | status code =>
    rw [callOutcome, Reply.isSuccess, Http.Answer.ok]
    split
    · next h => rw [h]; rfl
    · next h => rw [Bool.eq_false_iff.mpr h]; rfl
  | unreachable text => rfl

theorem webhookBody_ok {c : Context} (h : ∀ template ∈ hook.template, ∃ text,
      Template.render c.record.context template = .ok text) :
    ∃ body, webhookBody hook c = .ok body := by
  unfold webhookBody
  cases htemplate : hook.template with
  | none => exact ⟨_, rfl⟩
  | some template =>
    obtain ⟨text, htext⟩ := h template htemplate
    dsimp only
    rw [htext]
    split
    · exact ⟨_, rfl⟩
    · exact ⟨_, rfl⟩

/-- Whether an action is due does not depend on whether it may be tried again. -/
theorem isPassedOver_withoutRetry {c : Context}
    (hdue : Condition.holds? c.record.context none a.condition = true)
    (hprevious : c.previous = none) :
    a.withoutRetry.isPassedOver c = false := by
  have same : a.withoutRetry.condition = a.condition := by
    unfold withoutRetry
    split <;> rfl
  rw [isPassedOver, same, hprevious]
  exact congrArg (!·) hdue

structure Posts (a : Action) (hook : Webhook) (c : Context) : Prop where
  operation : a.operation = .postWebhook hook
  last : hook.retries = false
  due : a.isPassedOver c = false
  live : c.isDry = false
  written : ∀ template ∈ hook.template, ∃ text, Template.render c.record.context template = .ok text

/-- What a job is told that tries an action again: the action, and where its run stood. -/
def retryPayload (a : Action) (c : Context) : Value :=
  .obj (Fields.put "action" a.encode (origin c))

/-- A call that failed is handed to a job, if it may be tried again. -/
theorem postWebhook_hands (a : Action) (hook : Webhook) (f : Frame) :
    Yields (postWebhook a hook) f fun e g => ∀ id, e.sideEffect = some id →
      ∃ j ∈ g.world.tables.jobs, j.id.text = id ∧ j.kind = retryKind
        ∧ j.payload = retryPayload a f.context := by
  unfold postWebhook
  refine .step (context_eq f) (.bind (.readable (f := f)) ?_)
  rintro body _ ⟨rfl, -⟩
  dsimp only
  split
  · exact .pure nofun
  refine .step (lift_ok rfl) (.step (lift_ok (call_eq _ _)) (.step (lift_ok rfl) ?_))
  dsimp only
  split
  · refine Yields.bind (.lift (Job.add_ends _ _).yields) ?_
    rintro j g ⟨hj, -⟩
    refine .pure fun id hid => ⟨j, ?_, Option.some.inj hid, hj.kind, hj.payload⟩
    rw [hj.world]
    exact List.mem_append_right _ (List.mem_singleton.mpr rfl)
  · exact .pure nofun

theorem postWebhook_ends (h : a.Posts hook f.context) :
    Ends (postWebhook a hook) f (fun e g => g.context = f.context
      ∧ CallsOnce hook.url f.world g.world ∧ g.world.tables = f.world.tables
      ∧ e.error = (callOutcome f.world.nextReply).1 ∧ e.endsRun = false) fun _ _ => False := by
  obtain ⟨body, hbody⟩ := webhookBody_ok h.written
  unfold postWebhook
  refine .step (context_eq f) ?_
  rw [hbody]
  refine .step (a := body) (t := f) rfl (.ite (fun hdry => ?_) fun _ => ?_)
  · rw [h.live] at hdry
    cases hdry
  refine .step (a := f.world.settings) (t := f) rfl ?_
  refine .step (lift_ok (call_eq _ f.world)) (.step (a := f.world.wiring) rfl ?_)
  refine .ite (fun hagain => ?_) fun _ => ?_
  · rw [h.last] at hagain
    cases hagain.2.1
  · exact .pure ⟨rfl, ⟨⟨_, rfl, rfl⟩, rfl⟩, rfl, rfl, rfl⟩

end Action

structure ActionResult.Tells (r : ActionResult) (reply : Reply) : Prop where
  error : r.error = (Action.callOutcome reply).1
  status : r.status = if (Action.callOutcome reply).1.isSome then .failed else .success
  endsRun : r.endsRun = false

theorem ActionResult.Tells.add {r : ActionResult} {reply : Reply} (h : r.Tells reply) :
    (Progress.start.add r).limit = none
      ∧ (Progress.start.add r).error = (Action.callOutcome reply).1
      ∧ (Progress.start.add r).status
        = if (Action.callOutcome reply).1.isSome then .failed else .completed := by
  have herror := h.error
  have hstatus := h.status
  unfold Progress.add
  cases houtcome : (Action.callOutcome reply).1 with
  | none =>
    rw [houtcome] at hstatus
    rw [if_neg (by rw [hstatus]; decide)]
    exact ⟨rfl, rfl, rfl⟩
  | some error =>
    rw [houtcome] at hstatus herror
    rw [if_pos (by rw [hstatus]; rfl)]
    exact ⟨rfl, herror, rfl⟩

namespace Action
variable {a : Action} {hook : Webhook} {f : Frame}

/-- A webhook that there is room for takes one action off the budget, and calls once. -/
theorem perform_posts (react : Reaction) (h : a.Posts hook f.context)
    (hroom : f.context.budget.consumed < f.context.budget.maxActions) :
    Ends (a.perform react) f (fun r g => CallsOnce hook.url f.world g.world
      ∧ g.world.tables = f.world.tables ∧ g.context.parent = f.context.parent
      ∧ r.Tells f.world.nextReply) fun _ _ => False := by
  let b : Budget := { f.context.budget with consumed := f.context.budget.consumed + 1 }
  have consumed : consume a f = .ok () { f with context := { f.context with budget := b } } :=
    consume_ok (if_neg (by omega))
  have attempted : Ends (attempt react a) f (fun r g => CallsOnce hook.url f.world g.world
      ∧ g.world.tables = f.world.tables ∧ g.context.parent = f.context.parent
      ∧ r.Tells f.world.nextReply) fun _ _ => False := by
    unfold attempt
    refine .step consumed ?_
    rw [carryOut, h.operation]
    have posted := postWebhook_ends (f := ⟨f.world, { f.context with budget := b }⟩)
      ⟨h.operation, h.last, h.due, h.live, h.written⟩
    refine (orFailure_ends posted).bind (fun _ _ h => h.2) ?_
    rintro (cause | effect) g - hg
    · exact hg.2.elim
    · obtain ⟨hcontext, hcalls, htables, herror, hends⟩ := hg
      refine .pure ⟨hcalls, htables, by rw [hcontext], herror, ?_, hends⟩
      rw [Effect.result, herror]
  unfold perform
  refine .step (context_eq f) ?_
  rw [h.due]
  refine attempted.bind (fun _ _ h => h) fun r g _ hg => .step (lift_ok rfl) (.pure ?_)
  exact ⟨⟨hg.1.calls, hg.1.jobs⟩, hg.2.1, hg.2.2⟩

/-- A webhook that there is no room for is refused before anybody is called. -/
theorem perform_refused (react : Reaction) (h : a.isPassedOver f.context = false)
    (hspent : f.context.budget.maxActions ≤ f.context.budget.consumed) :
    ∃ l, l.cappedRun = none ∧ a.perform react f = .error (.limit l) f := by
  let l : LimitReached := ⟨f.context.budget.maxActions, f.context.budget.consumed, a.kind, none⟩
  refine ⟨l, rfl, ?_⟩
  unfold perform
  rw [bind_ok (context_eq f), h]
  exact bind_error (bind_error (consume_refused hspent) _) _

end Action

namespace Run
variable {a : Action} {hook : Webhook} {react : Reaction} {id : Uuid} {f : Frame}

/-! ## What is written to the row of a run -/

theorem uncalled_update (id : Uuid) (change : Run → Run) :
    Keeps (fun _ => True) Uncalled (update id change) := fun w =>
  .of_ok (update_eq id change w) ⟨rfl, rfl, rfl⟩

theorem uncalled_commit : Keeps (fun _ => True) Uncalled commit := .modify fun _ => ⟨rfl, rfl, rfl⟩

theorem uncalled_checkpoint (id : Uuid) (executed : List ActionResult) (consumed : Int) :
    Keeps (fun _ => True) Uncalled (checkpoint id executed consumed) :=
  .bind (.fetch anyCause Run id) fun _ => .bind (uncalled_update _ _) fun _ => uncalled_commit

theorem uncalled_finish (id : Uuid) (before : Int) (p : Progress) (c : Context) :
    Keeps (fun _ => True) Uncalled (finish id before p c) := by
  unfold finish
  refine .bind (.fetch anyCause Run id) fun _ => .bind .now fun t => ?_
  refine .bind (uncalled_update _ _) fun _ => .bind uncalled_commit fun _ => ?_
  refine .bind (.modify fun _ => ⟨rfl, rfl, rfl⟩) fun _ => ?_
  refine .bind (.modify fun _ => ⟨rfl, rfl, rfl⟩) fun _ => .ite ?_ (.pure _)
  exact .modify fun _ => ⟨rfl, rfl, rfl⟩

theorem uncalled_linkParent (run parent : Option Uuid) :
    Keeps (fun _ => True) Uncalled (linkParent run parent) := by
  unfold linkParent
  split
  · refine .bind (.find? Run _) fun found => .ite ?_ (.pure _)
    exact .bind (uncalled_update _ _) fun _ => uncalled_commit
  · exact .pure _

theorem RowSaved.isOpen {id : Uuid} {change : Run → Run} {w v : World} {notes : List AuditEntry}
    (h : RowSaved id change w v notes) (hchange : ∀ r, (change r).id = r.id) (hw : IsOpen id w) :
    IsOpen id v := by
  obtain ⟨r, hr, hid⟩ := hw
  refine ⟨change r, ?_, (hchange r).trans hid⟩
  rw [h.runs_eq]
  exact List.mem_map.mpr ⟨r, hr, if_pos hid⟩

/-! ## Runs by themselves -/

/-- How far a run came by itself, where `ok` does not mind what is written to its row. -/
structure Came (id : Uuid) (ok : Progress → World → Prop) (p : Progress) (g : Frame) : Prop where
  isOpen : IsOpen id g.world
  root : g.context.parent = none
  capped : ∀ l, p.limit = some l → l.cappedRun = some id
  ok : ok p g.world

variable {ok : Progress → World → Prop} {actions : List Action} {halts : Bool}

theorem Came.mono {ok' : Progress → World → Prop} {p : Progress} {g : Frame} (h : Came id ok p g)
    (hok : ok p g.world → ok' p g.world) : Came id ok' p g :=
  ⟨h.isOpen, h.root, h.capped, hok h.ok⟩

def Reports (ok : Progress → World → Prop) (r : RunResult) (w : World) : Prop :=
  ∃ id p, r.run = some id ∧ r.status = p.status ∧ r.error = p.error ∧ ok p w

theorem goThrough_reports (hok : ∀ p w v, ok p w → Uncalled w v → ok p v)
    (hcame : Ends (performFrom react id f.context.budget.consumed halts actions .start) f
      (Came id ok) fun _ _ => False) :
    Ends (goThrough react id actions halts) f (fun r g => Reports ok r g.world)
      fun _ _ => False := by
  unfold goThrough
  refine .step (context_eq f) (hcame.bind (fun _ _ h => h) fun p g _ hp => .step (context_eq g) ?_)
  obtain ⟨v, e, hv, -⟩ := finish_ends hp.isOpen f.context.budget.consumed p g.context
  have hdone : ok p v := hok p _ _ hp.ok ((uncalled_finish _ _ _ _).ok hv)
  refine .step (lift_ok hv) ?_
  cases hlimit : p.limit with
  | none => exact .pure ⟨id, p, rfl, rfl, rfl, hdone⟩
  | some l =>
    refine .ite (fun _ => ?_) fun h => absurd (hp.capped l hlimit) h
    refine .step (lift_ok (f := ⟨v, g.context⟩) rfl) (.guarded (fun h => ?_) fun _ => .pure ?_)
    · rw [hp.root] at h
      cases h
    · exact ⟨id, p, rfl, rfl, rfl, hok p _ _ hdone ⟨rfl, rfl, rfl⟩⟩

theorem runActions_reports (hok : ∀ p w v, ok p w → Uncalled w v → ok p v) {c : Context}
    (hkey : c.key = none) (hdepth : Cell.fits c.depth = true) {w : World}
    (hcame : ∀ id v, IsOpen id v → v.saved = v.tables → Uncalled w v →
      Ends (performFrom react id c.budget.consumed halts actions .start)
        ⟨v, { c with run := some id }⟩ (Came id ok) fun _ _ => False) :
    Ends (runActions react actions halts) ⟨w, c⟩ (fun r g => Reports ok r g.world)
      fun _ _ => False := by
  obtain ⟨row, v, hopen⟩ := openRun_ok hkey hdepth w
  have hopens := (openRun_ends c w).ok_of hopen
  have there : IsOpen row.id v := by
    rw [hopens.world]
    exact ⟨row, List.mem_append_right _ List.mem_cons_self, rfl⟩
  have saved : v.saved = v.tables := by rw [hopens.world]; rfl
  have opened : Uncalled w v := by
    rw [hopens.world]
    exact ⟨rfl, rfl, rfl⟩
  unfold runActions
  refine .step (context_eq _) (.step (lift_ok hopen) ?_)
  refine .step (a := ()) (t := ⟨v, { c with run := some row.id }⟩) rfl (marked_ends (.refl ?_)).ends
  have marked (g : Frame) (mark : Option String) : Uncalled g.world (g.mark mark).world :=
    ⟨rfl, rfl, rfl⟩
  have came := hcame row.id
    (Frame.mark (some row.id.text) ⟨v, { c with run := some row.id }⟩).world there saved
    (trans_of Uncalled opened (marked ⟨v, c⟩ _))
  refine (goThrough_reports hok came).mono ?_ fun _ _ h _ => h
  rintro r g ⟨id, p, hrun, hstatus, herror, hp⟩ mark
  exact ⟨id, p, hrun, hstatus, herror, hok p _ _ hp (marked g mark)⟩

/-! ## Webhooks -/

structure Posted (hook : Webhook) (w : World) (p : Progress) (v : World) : Prop where
  calls : CallsOnce hook.url w v
  error : p.error = (Action.callOutcome w.nextReply).1
  status : p.status = if (Action.callOutcome w.nextReply).1.isSome then .failed else .completed

structure TurnedAway (w : World) (p : Progress) (v : World) : Prop where
  uncalled : Uncalled w v
  status : p.status = .capped

theorem Posted.after {w v u : World} {p : Progress} (hv : Uncalled w v) (h : Posted hook v p u) :
    Posted hook w p u := by
  have same : v.nextReply = w.nextReply := congrArg (List.headD · _) hv.replies
  exact ⟨h.calls.after hv, same ▸ h.error, same ▸ h.status⟩

theorem Posted.later {w v u : World} {p : Progress} (h : Posted hook w p v) (hu : Uncalled v u) :
    Posted hook w p u := ⟨h.calls.later hu, h.error, h.status⟩

theorem Posted.completed_iff {w v : World} {p : Progress} (h : Posted hook w p v) :
    p.status = .completed ↔ w.nextReply.isSuccess = true := by
  rw [h.status, ← Action.callOutcome_error]
  cases (Action.callOutcome w.nextReply).1 <;> simp

theorem TurnedAway.after {w v u : World} {p : Progress} (hv : Uncalled w v) (h : TurnedAway v p u) :
    TurnedAway w p u := ⟨trans_of Uncalled hv h.uncalled, h.status⟩

theorem TurnedAway.later {w v u : World} {p : Progress} (h : TurnedAway w p v) (hu : Uncalled v u) :
    TurnedAway w p u := ⟨trans_of Uncalled h.uncalled hu, h.status⟩

theorem performFrom_posted (h : a.Posts hook f.context) (hopen : IsOpen id f.world)
    (hroot : f.context.parent = none)
    (hroom : f.context.budget.consumed < f.context.budget.maxActions) (before : Int) :
    Ends (performFrom react id before true [a] .start) f (Came id (Posted hook f.world))
      fun _ _ => False := by
  have performed := Action.perform_posts react (f := ⟨f.world, { f.context with pending := [] }⟩)
    ⟨h.operation, h.last, h.due, h.live, h.written⟩ hroom
  unfold performFrom
  refine .step (a := ()) (t := ⟨f.world, { f.context with pending := [] }⟩) rfl ?_
  refine (Action.orLimit_ends performed).bind (fun _ _ h => h.2) ?_
  rintro (l | r) g - hg
  · exact hg.elim
  obtain ⟨hcalls, htables, hparent, htells⟩ := hg
  have there : IsOpen id g.world := by
    rw [IsOpen, htables]
    exact hopen
  refine .step (context_eq g) ?_
  obtain ⟨v, hv, hrow⟩ := checkpoint_ends there (Progress.start.add r).executed
    (g.context.budget.consumed - before)
  have later := hcalls.later ((uncalled_checkpoint _ _ _).ok hv)
  obtain ⟨hlimit, herror, hstatus⟩ := htells.add
  have came : Came id (Posted hook f.world) (Progress.start.add r) ⟨v, g.context⟩ :=
    ⟨hrow.isOpen (fun _ => rfl) there, hparent.trans hroot, by simp [hlimit], later,
      herror, hstatus⟩
  refine .step (lift_ok hv) (.ite (fun _ => .pure came) fun _ => ?_)
  rw [htells.endsRun]
  exact .pure came

theorem performFrom_turnedAway (h : a.isPassedOver f.context = false) (hopen : IsOpen id f.world)
    (hroot : f.context.parent = none) (hsaved : f.world.saved = f.world.tables)
    (hspent : f.context.budget.maxActions ≤ f.context.budget.consumed) (before : Int) :
    Ends (performFrom react id before true [a] .start) f (Came id (TurnedAway f.world))
      fun _ _ => False := by
  obtain ⟨l, hl, hrefused⟩ := Action.perform_refused react
    (f := ⟨f.world, { f.context with pending := [] }⟩) h hspent
  unfold performFrom
  refine .step (a := ()) (t := ⟨f.world, { f.context with pending := [] }⟩) rfl ?_
  refine .step (a := .error l) (t := ⟨f.world, { f.context with pending := [] }⟩)
    (by rw [orLimit, hrefused]) ?_
  have back : f.world.rolledBack.tables = f.world.tables := hsaved
  refine .step (lift_ok (f := ⟨f.world, { f.context with pending := [] }⟩) rfl) (.pure ?_)
  refine ⟨?_, hroot, fun k hk => ?_, ⟨rfl, rfl, congrArg Tables.jobs back⟩, rfl⟩
  · obtain ⟨r, hr, hid⟩ := hopen
    exact ⟨r, back ▸ hr, hid⟩
  · obtain rfl := Option.some.inj hk
    rw [LimitReached.inRun, hl, Option.getD_none]

end Run

namespace Workflow
open Run

def retryContext (c : Context) (record : Record) (settings : Settings) : Context :=
  { Context.root record "retry" 0 with
    budget := ⟨Job.givenOr (some c.budget.maxActions) settings.maxActions, c.budget.consumed⟩
    actor := c.actor
    workflow := (Value.opt .uuid c.workflow).identifier? }

variable {a : Action} {hook : Webhook} {c : Context} {w : World} {record : Record}

theorem fits_depth_retryContext : Cell.fits (retryContext c record w.settings).depth = true := by
  have none_yet : Cell.fits 0 = true := by decide
  exact none_yet

/-- The job succeeds if and only if the run does that it starts. -/
theorem retryAction_ends {ok : Progress → World → Prop}
    (hok : ∀ p w v, ok p w → Uncalled w v → ok p v) (hread : a.IsRead)
    (hrecord : recordOf? (Action.retryPayload a c) w = .ok (some record) w)
    (hrun : Ends (runActions (retryContext c record w.settings).reaction [a.withoutRetry] true)
      ⟨w, retryContext c record w.settings⟩ (fun r g => Reports ok r g.world) fun _ _ => False) :
    Ends (retryAction (Action.retryPayload a c)) w (fun _ v => ∃ p, p.status = .completed ∧ ok p v)
      fun _ v => ∃ p, p.status ≠ .completed ∧ ok p v := by
  have started : Ends (Run.start (retryContext c record w.settings) [a.withoutRetry] true) w
      (fun r v => Reports ok r v) fun _ _ => False := runIn_fst_ends hrun
  have written : (Action.retryPayload a c).demand "action" = .ok a.encode := rfl
  have budget : handedBudget (Action.retryPayload a c).fields w
      = .ok ⟨Job.givenOr (some c.budget.maxActions) w.settings.maxActions, c.budget.consumed⟩ w :=
    handedBudget_eq rfl rfl w
  unfold retryAction
  refine .step hrecord ?_
  dsimp only
  rw [written]
  refine .step (a := a.encode) (t := w) rfl ?_
  rw [hread.decode_encode]
  refine .step (a := a) (t := w) rfl (.step budget ?_)
  refine started.bind (fun _ _ h => h.elim) fun r v _ ⟨id, p, hrun, hstatus, herror, hp⟩ => ?_
  rw [hrun, hstatus, herror]
  refine ((linkParent_ends id _ v).and (uncalled_linkParent _ _ v)).bind (fun _ _ h => h.1.elim) ?_
  rintro _ u - ⟨-, hu⟩
  have done : ok p u := hok p v u hp hu
  refine .ite (fun hfailed => ?_) fun hcompleted => .pure ⟨p, Decidable.not_not.mp hcompleted, done⟩
  cases p.error with
  | some error => exact .throw ⟨p, hfailed, done⟩
  | none => exact .throw ⟨p, hfailed, done⟩

theorem posts_withoutRetry (hoperation : a.operation = .postWebhook hook) {d : Context}
    (hdue : Condition.holds? d.record.context none a.condition = true)
    (hwritten : ∀ template ∈ hook.template, ∃ text,
      Template.render d.record.context template = .ok text)
    (hprevious : d.previous = none) (hlive : d.isDry = false) :
    a.withoutRetry.Posts { hook with retries := false } d := by
  refine ⟨?_, rfl, ?_, hlive, hwritten⟩
  · rw [Action.withoutRetry, hoperation]
  · exact Action.isPassedOver_withoutRetry hdue hprevious

/-- As long as there is room for it, the webhook is called once more, no job is scheduled, and the
job succeeds if and only if the answer does. -/
theorem retryAction_posts (hread : a.IsRead) (hoperation : a.operation = .postWebhook hook)
    (hrecord : recordOf? (Action.retryPayload a c) w = .ok (some record) w)
    (hdue : Condition.holds? record.context none a.condition = true)
    (hwritten : ∀ template ∈ hook.template, ∃ text,
      Template.render record.context template = .ok text)
    (hroom : c.budget.consumed < Job.givenOr (some c.budget.maxActions) w.settings.maxActions) :
    Ends (retryAction (Action.retryPayload a c)) w
      (fun _ v => CallsOnce hook.url w v ∧ w.nextReply.isSuccess = true)
      fun _ v => CallsOnce hook.url w v ∧ w.nextReply.isSuccess = false := by
  let d := retryContext c record w.settings
  let last : Webhook := { hook with retries := false }
  have ran : Ends (runActions d.reaction [a.withoutRetry] true) ⟨w, d⟩
      (fun r g => Reports (Posted last w) r g.world) fun _ _ => False := by
    refine runActions_reports (fun _ _ _ h hu => h.later hu) rfl fits_depth_retryContext ?_
    intro id v hopen _ hv
    have posts : a.withoutRetry.Posts last { d with run := some id } :=
      posts_withoutRetry hoperation hdue hwritten rfl rfl
    exact (performFrom_posted posts hopen rfl hroom _).mono (fun _ _ h => h.mono (.after hv))
      fun _ _ h => h
  refine (retryAction_ends (fun _ _ _ h hu => h.later hu) hread hrecord ran).mono ?_ ?_
  · rintro _ v ⟨p, hstatus, hp⟩
    exact ⟨hp.calls, hp.completed_iff.mp hstatus⟩
  · rintro _ v ⟨p, hstatus, hp⟩
    exact ⟨hp.calls, Bool.eq_false_iff.mpr fun h => hstatus (hp.completed_iff.mpr h)⟩

/-- Once the failed run had used its budget up, nothing is called, and the job fails. -/
theorem retryAction_turnedAway (hread : a.IsRead)
    (hrecord : recordOf? (Action.retryPayload a c) w = .ok (some record) w)
    (hdue : Condition.holds? record.context none a.condition = true)
    (hspent : Job.givenOr (some c.budget.maxActions) w.settings.maxActions ≤ c.budget.consumed) :
    Ends (retryAction (Action.retryPayload a c)) w (fun _ _ => False) fun _ v => Uncalled w v := by
  let d := retryContext c record w.settings
  have ran : Ends (runActions d.reaction [a.withoutRetry] true) ⟨w, d⟩
      (fun r g => Reports (TurnedAway w) r g.world) fun _ _ => False := by
    refine runActions_reports (fun _ _ _ h hu => h.later hu) rfl fits_depth_retryContext ?_
    intro id v hopen hsaved hv
    let f : Frame := ⟨v, { d with run := some id }⟩
    have due : a.withoutRetry.isPassedOver f.context = false :=
      Action.isPassedOver_withoutRetry hdue rfl
    exact (performFrom_turnedAway (f := f) due hopen rfl hsaved hspent _).mono
      (fun _ _ h => h.mono (.after hv)) fun _ _ h => h
  refine (retryAction_ends (fun _ _ _ h hu => h.later hu) hread hrecord ran).mono ?_ ?_
  · rintro _ v ⟨p, hstatus, hp⟩
    rw [hp.status] at hstatus
    cases hstatus
  · rintro _ v ⟨p, -, hp⟩
    exact hp.uncalled

end Workflow
end RecordFlow
