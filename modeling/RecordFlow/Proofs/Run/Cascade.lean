import RecordFlow.Proofs.Run.Nesting

/-! # The cascade of runs

A write by an action triggers runs, whose actions write and trigger further runs. Every run takes at
least one action off the budget before it can trigger another, so that a reaction with room for as
many levels as the budget has actions never gets to its last level: it does the same whatever would
happen there. What is proved of parts of runs is therefore said of two reactions at once, which may
differ below the levels that the budget allows.
-/
namespace RecordFlow
open RecordFlow.Flow Scoped
variable {α β : Type} {writes : Bool} {workflows : List StoredWorkflow}

structure Ready (spare levels : Nat) (high : Int) (workflows : List StoredWorkflow) (f : Frame) :
    Prop where
  settled : f.world.Settled
  workflows : f.world.tables.workflows = workflows
  levels : f.context.budget.remaining + spare ≤ levels
  depth : f.context.depth + f.context.budget.remaining + spare ≤ high

def BreaksOff (writes : Bool) (high : Int) (workflows : List StoredWorkflow) (f : Frame) (e : Failure)
    (g : Frame) : Prop :=
  e.isLimit = false ∧ Grown writes high workflows f g ∨ ∃ l, e = .limit l ∧ CutShort high workflows l f g

def Leads (writes : Bool) (spare levels : Nat) (high : Int) (workflows : List StoredWorkflow)
    (x y : Scoped α) : Prop :=
  ∀ f : Frame, Ready spare levels high workflows f → f.context.run.isSome →
    Alike x y f (fun _ g => Grown writes high workflows f g) (BreaksOff writes high workflows f)

/-- Two reactions do the same wherever the budget leaves room below so many levels. -/
def Bounded (levels : Nat) (high : Int) (workflows : List StoredWorkflow)
    (react react' : Reaction) : Prop :=
  ∀ before after, Leads false 1 levels high workflows (react before after) (react' before after)

theorem Ready.later {spare levels : Nat} {high : Int} {f g : Frame}
    (h : Ready spare levels high workflows f) (hworld : g.world.Settled)
    (hledger : g.world.tables.ledger = f.world.tables.ledger)
    (hcontext : SameRun f.context g.context) : Ready spare levels high workflows g where
  settled := hworld
  workflows := (congrArg Ledger.workflows hledger).trans h.workflows
  levels := by
    have hr := hcontext.budget.remaining_le
    have hl := h.levels
    omega
  depth := by
    have hr := hcontext.budget.remaining_le
    have hd := h.depth
    rw [hcontext.depth]
    omega

namespace Grown
variable {spare levels : Nat} {high : Int} {f g : Frame}

theorem ready (hg : Grown writes high workflows f g) (h : Ready spare levels high workflows f) :
    Ready spare levels high workflows g := by
  obtain ⟨new, notes, hs, hc, -, -⟩ := hg
  exact h.later hs.settled hs.ledger hc

theorem refl (hf : f.world.Settled) : Grown writes high workflows f f :=
  .beside hf (.refl f.world) (.refl f.context)

theorem sameRun (hg : Grown writes high workflows f g) : SameRun f.context g.context := by
  obtain ⟨new, notes, hs, hc, -, -⟩ := hg
  exact hc

end Grown

theorem BreaksOff.after {high : Int} {f g h : Frame} {e : Failure}
    (hg : Grown writes high workflows f g) (hh : BreaksOff writes high workflows g e h) :
    BreaksOff writes high workflows f e h := by
  rcases hh with ⟨he, hh⟩ | ⟨l, rfl, hh⟩
  · exact .inl ⟨he, hg.trans hh⟩
  · exact .inr ⟨l, rfl, hg.trans_cutShort hh⟩

namespace Leads
variable {spare levels : Nat} {high : Int} {x x' : Scoped α}

theorem pure (a : α) : Leads writes spare levels high workflows (Pure.pure a : Scoped α) (Pure.pure a) :=
  fun _ hf _ => .refl (.pure (.refl hf.settled))

theorem throw {e : Failure} (he : e.isLimit = false) :
    Leads writes spare levels high workflows (throw e : Scoped α) (throw e) :=
  fun _ hf _ => .refl (.throw (.inl ⟨he, .refl hf.settled⟩))

theorem writing {y : Scoped α} (h : Leads writes spare levels high workflows x y) :
    Leads true spare levels high workflows x y := fun f hf hrun =>
  (h f hf hrun).mono (fun _ _ hg => hg.writing) fun _ _ hg =>
    hg.imp (fun hg => ⟨hg.1, hg.2.writing⟩) fun hg => hg

theorem incidental (hx : IncidentalIn (Beside writes) x) :
    Leads writes spare levels high workflows x x :=
  fun f hf _ => .refl ((hx f).mono
    (fun _ _ h => .beside hf.settled h.world (.of_eq h.context))
    fun _ _ h => .inl ⟨h.1, .beside hf.settled h.2.world (.of_eq h.2.context)⟩)

theorem bind {y y' : α → Scoped β} (hx : Leads writes spare levels high workflows x x')
    (hy : ∀ a, Leads writes spare levels high workflows (y a) (y' a)) :
    Leads writes spare levels high workflows (x >>= y) (x' >>= y') := by
  intro f hf hrun
  refine (hx f hf hrun).bind (fun _ _ h => h) fun a g hg => ?_
  have hrun' : g.context.run.isSome := by rw [hg.sameRun.run]; exact hrun
  exact (hy a g (hg.ready hf) hrun').mono (fun _ _ hh => hg.trans hh) fun _ _ hh => hh.after hg

theorem ite {c : Prop} [Decidable c] {y y' : Scoped α} (hx : Leads writes spare levels high workflows x x')
    (hy : Leads writes spare levels high workflows y y') :
    Leads writes spare levels high workflows (if c then x else y) (if c then x' else y') := by
  split
  · exact hx
  · exact hy

theorem changeContext {change : Context → Context} (h : ∀ c, SameRun c (change c)) :
    Leads writes spare levels high workflows (changeContext change) (changeContext change) :=
  fun f hf _ => .refl (.of_ok (a := ()) rfl
    (.beside hf.settled (.refl f.world) (h f.context)))

end Leads

/-! ## Actions -/

theorem context_eq (f : Frame) : context f = .ok f.context f := rfl

namespace Action
variable {levels : Nat} {high : Int} {react react' : Reaction}

theorem leads_applyPatch (hb : Bounded levels high workflows react react') (changes : Fields) :
    Leads true 1 levels high workflows (applyPatch react changes) (applyPatch react' changes) := by
  unfold applyPatch
  refine .bind (.incidental incidentalIn_context) fun before => ?_
  refine .bind (.incidental (incidentalIn_lift (incidental_patch _ _ _))) fun after => ?_
  refine .bind (.changeContext fun c => ⟨rfl, rfl, rfl, .refl _⟩) fun _ => ?_
  refine .bind (.incidental (incidentalIn_lift .wiring)) fun wiring => ?_
  exact .ite (hb _ _).writing (.pure ())

theorem leads_updateFields (hb : Bounded levels high workflows react react') (fields : Fields) :
    Leads true 1 levels high workflows (updateFields react fields) (updateFields react' fields) := by
  unfold updateFields
  refine .bind (.incidental incidentalIn_context) fun c => ?_
  refine .bind (.incidental (incidentalIn_readable _)) fun changes => ?_
  refine .bind (.incidental (incidentalIn_readable _)) fun before => ?_
  exact .ite (.pure _) (.bind (leads_applyPatch hb changes) fun _ => .pure _)

theorem leads_moveStage (hb : Bounded levels high workflows react react') (stage : String) :
    Leads true 1 levels high workflows (moveStage react stage) (moveStage react' stage) := by
  unfold moveStage
  refine .bind (.incidental incidentalIn_context) fun c => ?_
  exact .ite (.pure _) (.ite (.pure _) (.bind (leads_applyPatch hb _) fun _ => .pure _))

theorem leads_assignOwner (hb : Bounded levels high workflows react react') (rule : Option Uuid)
    (strategy : Option Strategy) (user : Option String) :
    Leads true 1 levels high workflows (assignOwner react rule strategy user)
      (assignOwner react' rule strategy user) := by
  unfold assignOwner
  refine .bind (.incidental incidentalIn_context) fun c => ?_
  refine .bind (.incidental (incidentalIn_chooseOwner _ _ _)) fun choice => ?_
  refine .ite (.pure _) (.ite (.pure _) (.ite (.pure _) (.bind (leads_applyPatch hb _) fun _ => ?_)))
  refine .bind (.incidental (incidentalIn_lift
    (incidental_note (by decide) (.inl (by decide))))) fun _ => ?_
  refine .bind (.incidental (incidentalIn_lift
    (.valid (fun _ h => h) _))) fun _ => .pure _

theorem leads_carryOut (hb : Bounded levels high workflows react react') (a : Action) :
    Leads true 1 levels high workflows (carryOut react a) (carryOut react' a) := by
  unfold carryOut
  split
  · exact leads_updateFields hb _
  · exact leads_assignOwner hb _ _ _
  · exact .incidental (incidentalIn_createTask _)
  · exact .incidental (incidentalIn_createActivity _)
  · exact .incidental (incidentalIn_addNote _ _)
  · exact .incidental (incidentalIn_notify _)
  · exact leads_moveStage hb _
  · exact .incidental (incidentalIn_startCadence _)
  · exact .incidental (incidentalIn_stopCadence _)
  · exact .incidental (incidentalIn_draftEnrollment _)
  · exact .incidental (incidentalIn_sendEmail _)
  · exact .incidental (incidentalIn_sendSms _)
  · exact .incidental (incidentalIn_delayWait _)
  · exact .incidental (incidentalIn_postWebhook _ _)

/-- How an action is stopped: for want of budget before it did anything, or because a run nested
in it was cut short. -/
def Stops (high : Int) (workflows : List StoredWorkflow) (f : Frame) (e : Failure) (g : Frame) :
    Prop :=
  ∃ l, e = .limit l
    ∧ (l.cappedRun = none ∧ l.TellsOf f.context.budget ∧ g = f ∨ CutShort high workflows l f g)

/-- An action is refused as soon as the budget is used up, and nothing happens. -/
theorem consume_refused {a : Action} {f : Frame}
    (h : f.context.budget.maxActions ≤ f.context.budget.consumed) :
    consume a f = .error
      (.limit ⟨f.context.budget.maxActions, f.context.budget.consumed, a.kind, none⟩) f := by
  unfold consume
  rw [bind_ok (context_eq f), Budget.consume, if_pos h]
  rfl

theorem consume_ok {a : Action} {f : Frame} {b : Budget}
    (h : f.context.budget.consume a.kind = .ok b) :
    consume a f = .ok () { f with context := { f.context with budget := b } } := by
  unfold consume
  rw [bind_ok (context_eq f), h]
  rfl

theorem consume_error {a : Action} {f : Frame} {l : LimitReached}
    (h : f.context.budget.consume a.kind = .error l) : consume a f = .error (.limit l) f := by
  unfold consume
  rw [bind_ok (context_eq f), h]
  rfl

/-- An action that is not passed over is attempted, and the result is counted. -/
theorem perform_of_attempt {react : Reaction} {a : Action} {f : Frame}
    {ok : ActionResult → Frame → Prop} {bad : Failure → Frame → Prop}
    (hpassed : ok (.passedOver a) f) (hattempt : Ends (attempt react a) f ok bad)
    (hcount : ∀ r g samples, ok r g → ok r { g with
      world := { g.world with journal := { g.world.journal with samples := samples } } }) :
    Ends (perform react a) f ok bad := by
  have counted (r : ActionResult) (g : Frame) (hr : ok r g) : Ends (do
      (count (.action a.kind r.status.name) : Flow Unit)
      return r : Scoped ActionResult) g ok bad :=
    .step (lift_ok rfl) (.pure (hcount r g _ hr))
  unfold perform
  refine .step (context_eq f) ?_
  split
  · exact .step rfl (counted _ f hpassed)
  · exact hattempt.bind (fun _ _ h => h) fun r g _ hr => counted r g hr

/-- The limit of the budget is caught, and no other failure. -/
theorem orLimit_ends {x : Scoped α} {f : Frame} {ok : α → Frame → Prop}
    {bad : Failure → Frame → Prop} (h : Ends x f ok bad) :
    Ends (orLimit x) f
      (fun r g => match r with
        | .ok a => ok a g
        | .error l => bad (.limit l) g)
      (fun e g => e.isLimit = false ∧ bad e g) := by
  cases hx : x f with
  | ok a g => exact .of_ok (a := .ok a) (by rw [orLimit, hx]) (h.ok_of hx)
  | error e g =>
    have hbad := h.bad_of hx
    cases e with
    | limit l => exact .of_ok (a := .error l) (by rw [orLimit, hx]) hbad
    | _ => exact .of_error (by rw [orLimit, hx]) ⟨rfl, hbad⟩

/-- A failure other than the want of budget is caught. -/
theorem orFailure_ends {x : Scoped α} {f : Frame} {ok : α → Frame → Prop}
    {bad : Failure → Frame → Prop} (h : Ends x f ok bad) :
    Ends (orFailure x) f
      (fun r g => match r with
        | .ok a => ok a g
        | .error e => e.isLimit = false ∧ bad e g)
      (fun e g => e.isLimit = true ∧ bad e g) := by
  cases hx : x f with
  | ok a g => exact .of_ok (a := .ok a) (by rw [orFailure, hx]) (h.ok_of hx)
  | error e g =>
    have hbad := h.bad_of hx
    cases e with
    | limit l => exact .of_error (by rw [orFailure, hx]) ⟨rfl, hbad⟩
    | _ => exact .of_ok (a := .error _) (by rw [orFailure, hx]) ⟨rfl, hbad⟩

/-- Of the failures of an action, only those of runs nested in it pass on. -/
theorem caught_ends (hb : Bounded levels high workflows react react') (a : Action) {f : Frame}
    (hf : Ready 1 levels high workflows f) (hrun : f.context.run.isSome) :
    Alike (orFailure (carryOut react a)) (orFailure (carryOut react' a)) f
      (fun _ g => Grown true high workflows f g)
      (fun e g => ∃ l, e = .limit l ∧ CutShort high workflows l f g) := by
  have part := leads_carryOut hb a f hf hrun
  refine ⟨by rw [orFailure, orFailure, part.same], (orFailure_ends part.ends).mono ?_ ?_⟩
  · rintro (e | effect) g hg
    · rcases hg with ⟨he, ⟨-, hg⟩ | ⟨l, rfl, -⟩⟩
      · exact hg
      · cases he
    · exact hg
  · rintro e g ⟨he, ⟨hne, -⟩ | hcut⟩
    · rw [he] at hne
      cases hne
    · exact hcut

theorem attempt_ends (hb : Bounded levels high workflows react react') (a : Action) {f : Frame}
    (hf : Ready 0 levels high workflows f) (hrun : f.context.run.isSome) :
    Alike (attempt react a) (attempt react' a) f
      (fun r g => r.IsOf a ∧ Grown true high workflows f g) (Stops high workflows f) := by
  unfold attempt
  cases hc : f.context.budget.consume a.kind with
  | error l =>
    have hfull : f.context.budget.maxActions ≤ f.context.budget.consumed := by
      unfold Budget.consume at hc
      split at hc
      · next h => exact h
      · cases hc
    have refused := consume_refused (a := a) hfull
    refine ⟨by rw [bind_error refused, bind_error refused], ?_⟩
    exact .of_error (bind_error refused _) ⟨_, rfl, .inl ⟨rfl, ⟨rfl, rfl, hfull⟩, rfl⟩⟩
  | ok b =>
    have hspent := Budget.remaining_consume hc
    let g : Frame := { f with context := { f.context with budget := b } }
    have hsame : SameRun f.context g.context := ⟨rfl, rfl, rfl, .consume hc⟩
    have hfg : Grown true high workflows f g := .beside hf.settled (.refl f.world) hsame
    have hg : Ready 1 levels high workflows g := by
      have hl := hf.levels
      have hd := hf.depth
      exact ⟨hf.settled, hf.workflows, by simp only [g]; omega, by simp only [g]; omega⟩
    refine .step (consume_ok hc) ((caught_ends hb a hg hrun).bind ?_ fun r k hk => ?_)
    · rintro _ k ⟨l, rfl, hk⟩
      exact ⟨l, rfl, .inr (hfg.trans_cutShort hk)⟩
    · cases r with
      | ok effect => exact .refl (.pure ⟨⟨rfl, rfl⟩, hfg.trans hk⟩)
      | error cause => exact .refl (.of_ok rfl ⟨⟨rfl, rfl⟩, (hfg.trans hk).rollback⟩)

theorem perform_ends (hb : Bounded levels high workflows react react') (a : Action) {f : Frame}
    (hf : Ready 0 levels high workflows f) (hrun : f.context.run.isSome) :
    Alike (perform react a) (perform react' a) f
      (fun r g => r.IsOf a ∧ Grown true high workflows f g) (Stops high workflows f) := by
  have counted (r : ActionResult) {g : Frame} (hr : r.IsOf a) (hg : Grown true high workflows f g) :
      Ends (do
        (count (.action a.kind r.status.name) : Flow Unit)
        return r : Scoped ActionResult) g
      (fun r k => r.IsOf a ∧ Grown true high workflows f k) (Stops high workflows f) := by
    have counted : Incidental (Beside true) (count (.action a.kind r.status.name)) :=
      incidental_count _
    have hbeside := counted.ok (s := g.world) (a := ()) rfl
    exact .step (a := ()) rfl
      (.pure ⟨hr, hg.trans (.beside (hg.ready hf).settled hbeside (.refl _))⟩)
  unfold perform
  refine .step (context_eq f) ?_
  split
  · exact .step rfl (.refl (counted _ ⟨rfl, rfl⟩ (.refl hf.settled)))
  · refine (attempt_ends hb a hf hrun).bind (fun _ _ h => h) fun r g hg => ?_
    exact .refl (counted r hg.1 hg.2)

end Action

end RecordFlow
