import RecordFlow.Proofs.Action.Incidental
import RecordFlow.Proofs.Run.Launch
import RecordFlow.Proofs.Run.Upheld

/-! # Trial runs

In a trial run every action comes to the point where it would act, and reports what it would do
instead. It has looked at the tables and counted samples by then, and done nothing else; the same
holds where it breaks off before.

A trial run goes through a workflow and reports what it would do. It leaves a row of its own, which
says that it was a trial, notes that it took place, and counts samples. Everything else that is
stored stays as it was, and nothing goes out to others.
-/
namespace RecordFlow
open RecordFlow.Flow Scoped

/-! ## Actions that are only planned -/

def Counted (w v : World) : Prop :=
  ∃ samples, v = { w with journal := { w.journal with samples := samples } }

instance : IsPreorder World Counted where
  refl w := ⟨w.journal.samples, rfl⟩
  trans := by
    rintro w - - ⟨samples, rfl⟩ ⟨samples', rfl⟩
    exact ⟨samples', rfl⟩

abbrev Counts {α : Type} (part : Flow α) : Prop := Keeps (fun _ => True) Counted part

theorem counts_count (s : Sample) : Counts (count s) := .modify fun _ => ⟨_, rfl⟩

/-! ## Owners that are only looked up -/

section Owners

/-- The turn is not passed on. -/
theorem AssignmentRule.counts_rotate (rule : Uuid) (candidates : List Candidate) (tries : Nat) :
    Counts (rotate rule candidates false tries) := by
  cases tries with
  | zero => exact .pure _
  | succ tries => exact .bind (.fetch anyCause AssignmentRule rule) fun _ => .pure _

theorem AssignmentRule.counts_leastLoaded (r : AssignmentRule) (candidates : List Candidate) :
    Counts (r.leastLoaded candidates) := by
  have load (c : Candidate) : Counts (do
      return ((← Record.countOpen (.str c.userId) (.ofOption r.module)), c.userId)) :=
    .bind (.bind (.taken anyCause _) fun _ => .bind (.taken anyCause _) fun _ =>
      .bind (.all StoredRecord) fun _ => .pure _) fun _ => .pure _
  unfold leastLoaded
  refine .bind (.mapM _ load candidates) fun loads => ?_
  split
  · exact .pure _
  · exact .pure _

theorem AssignmentRule.counts_apply (r : AssignmentRule) (record : Record) :
    Counts (r.apply record false) := by
  unfold apply
  refine .bind (.shaped anyCause _) fun items => .bind (.valid anyCause _) fun candidates => ?_
  split
  · exact .shaped anyCause _
  · exact .ite (.pure _) (.bind .settings fun _ => counts_rotate _ _ _)
  · exact counts_leastLoaded r candidates
  · exact .shaped anyCause _
  · exact .pure _

theorem counts_resolveAssignment (rule : Uuid) (record : Record) :
    Counts (resolveAssignment rule record false) := by
  have counted (d : Decision) : Counts d.counted := .bind (counts_count _) fun _ => .pure _
  unfold resolveAssignment
  refine .bind (.find? AssignmentRule rule) fun found => ?_
  cases found with
  | none => exact counted _
  | some r => exact .ite (counted _) (.bind (r.counts_apply record) fun _ => counted _)

end Owners

/-! ## Parts of a trial run -/

/-- In this context, and however it ends, the part does no more than to count samples. -/
def Plans {α : Type} (c : Context) (part : Scoped α) : Prop :=
  ∀ w, Ends part { world := w, context := c } (fun _ g => Counted w g.world ∧ g.context = c)
    fun _ g => Counted w g.world ∧ g.context = c

namespace Plans
variable {α β : Type} {c : Context} {x : Scoped α} {y : α → Scoped β}

theorem pure (a : α) : Plans c (Pure.pure a : Scoped α) := fun w => .pure ⟨refl_of Counted w, rfl⟩

theorem throw (e : Failure) : Plans c (MonadExcept.throw e : Scoped α) := fun w =>
  .throw ⟨refl_of Counted w, rfl⟩

theorem lift {part : Flow α} (h : Counts part) : Plans c (liftM part : Scoped α) := fun w => by
  cases hp : part w with
  | ok a v => exact .of_ok (lift_ok hp) ⟨h.ok hp, rfl⟩
  | error e v => exact .of_error (lift_error hp) ⟨(h.error hp).2, rfl⟩

theorem bind (hx : Plans c x) (hy : ∀ a, Plans c (y a)) : Plans c (x >>= y) := fun w => by
  refine (hx w).bind (fun _ _ h => h) ?_
  rintro a ⟨v, _⟩ - ⟨hv, rfl⟩
  exact (hy a v).mono (fun _ _ h => ⟨trans_of Counted hv h.1, h.2⟩) fun _ _ h =>
    ⟨trans_of Counted hv h.1, h.2⟩

theorem context {y : Context → Scoped β} (hy : Plans c (y c)) : Plans c (Scoped.context >>= y) :=
  fun w => .step rfl (hy w)

theorem readable {v : Except BadNumeral α} (hy : ∀ a, Plans c (y a)) :
    Plans c (liftM (Flow.readable v) >>= y) :=
  .bind (.lift (.readable anyCause v)) hy

theorem ite {p : Prop} [Decidable p] {z : Scoped α} (hx : Plans c x) (hz : Plans c z) :
    Plans c (if p then x else z) := by
  split
  · exact hx
  · exact hz

/-- Where a trial run would act, it reports. -/
theorem dry {z : Scoped α} (hdry : c.isDry = true) (hx : Plans c x) :
    Plans c (if c.isDry then x else z) := by
  rw [if_pos hdry]
  exact hx

end Plans

/-! ## Actions -/

namespace Action
variable {react : Reaction} {c : Context} (hdry : c.isDry = true)
include hdry

theorem plans_updateFields (fields : Fields) : Plans c (updateFields react fields) := by
  unfold updateFields
  exact .context (.readable fun changes => .readable fun before => .dry hdry (.pure _))

theorem plans_moveStage (stage : String) : Plans c (moveStage react stage) := by
  unfold moveStage
  exact .context (.ite (.pure _) (.dry hdry (.pure _)))

theorem plans_chooseOwner (rule : Option Uuid) (strategy : Option Strategy)
    (user : Option String) : Plans c (chooseOwner rule strategy user) := by
  unfold chooseOwner
  refine .context ?_
  rw [hdry]
  split
  · exact .readable fun owner => .pure _
  · exact .bind (.lift (counts_resolveAssignment _ _)) fun d => .pure _
  · exact .throw _

theorem plans_assignOwner (rule : Option Uuid) (strategy : Option Strategy)
    (user : Option String) : Plans c (assignOwner react rule strategy user) := by
  unfold assignOwner
  refine .context (.bind (plans_chooseOwner hdry rule strategy user) fun choice => ?_)
  exact .dry hdry (.pure _)

theorem plans_addChild (d : Record.ChildDraft) : Plans c (addChild d) := by
  unfold addChild
  exact .context (.dry hdry (.pure _))

theorem plans_createTask (d : TaskDraft) : Plans c (createTask d) := by
  unfold createTask
  refine .context (.readable fun title => .readable fun body => .readable fun assignedTo => ?_)
  refine .bind (.lift .moment) fun m => .bind (.lift (.inTime anyCause _)) fun due => ?_
  exact plans_addChild hdry _

theorem plans_createActivity (d : ActivityDraft) : Plans c (createActivity d) := by
  unfold createActivity
  refine .context (.bind (.lift .moment) fun m => .bind (.lift (.inTime anyCause _)) fun due => ?_)
  refine .readable fun title => .readable fun body => .readable fun assignedTo => ?_
  exact plans_addChild hdry _

theorem plans_addNote (body : String) (isPinned : Bool) : Plans c (addNote body isPinned) := by
  unfold addNote
  exact .context (.readable fun body => plans_addChild hdry _)

theorem plans_draftEnrollment (d : EnrollmentDraft) : Plans c (draftEnrollment d) := by
  unfold draftEnrollment
  exact .ite (.bind (.throw _) fun _ => .context (plans_addChild hdry _))
    (.context (plans_addChild hdry _))

theorem plans_notify (n : Notice) : Plans c (notify n) := by
  unfold notify
  refine .context (.readable fun users => .readable fun title => .readable fun body => ?_)
  exact .dry hdry (.pure _)

theorem plans_sendMessage (kind channel : String) (r : MessageRequest) :
    Plans c (sendMessage kind channel r) := by
  unfold sendMessage
  exact .context (.dry hdry (.pure _))

theorem plans_sendEmail (d : EmailDraft) : Plans c (sendEmail d) := by
  unfold sendEmail
  refine .context (.readable fun to_ => .readable fun subject => .readable fun body => ?_)
  exact plans_sendMessage hdry _ _ _

theorem plans_sendSms (d : SmsDraft) : Plans c (sendSms d) := by
  unfold sendSms
  exact .context (.readable fun to_ => .readable fun body => plans_sendMessage hdry _ _ _)

theorem plans_startCadence (cadence : Uuid) : Plans c (startCadence cadence) := by
  unfold startCadence
  exact .context (.dry hdry (.pure _))

theorem plans_stopCadence (cadence : Option Uuid) : Plans c (stopCadence cadence) := by
  unfold stopCadence
  exact .context (.dry hdry (.pure _))

theorem plans_delayWait (d : Delay) : Plans c (delayWait d) := by
  unfold delayWait
  refine .context (.bind (.lift .moment) fun m => ?_)
  refine .bind (.lift (.orThrow anyCause _ fun e => isLimit_due)) fun due => ?_
  exact .dry hdry (.pure _)

theorem plans_postWebhook (a : Action) (w : Webhook) : Plans c (postWebhook a w) := by
  unfold postWebhook
  exact .context (.readable fun body => .dry hdry (.pure _))

/-- No action of a trial run acts, whatever would follow upon its writes. -/
theorem plans_carryOut (react : Reaction) (a : Action) : Plans c (carryOut react a) := by
  unfold carryOut
  split
  · exact plans_updateFields hdry _
  · exact plans_assignOwner hdry _ _ _
  · exact plans_createTask hdry _
  · exact plans_createActivity hdry _
  · exact plans_addNote hdry _ _
  · exact plans_notify hdry _
  · exact plans_moveStage hdry _
  · exact plans_startCadence hdry _
  · exact plans_stopCadence hdry _
  · exact plans_draftEnrollment hdry _
  · exact plans_sendEmail hdry _
  · exact plans_sendSms hdry _
  · exact plans_delayWait hdry _
  · exact plans_postWebhook hdry _ _

end Action

/-! ## Runs -/

structure World.Silent (w v : World) : Prop where
  events : v.journal.events = w.journal.events
  calls : v.journal.calls = w.journal.calls
  replies : v.replies = w.replies

instance : IsPreorder World World.Silent where
  refl _ := ⟨rfl, rfl, rfl⟩
  trans _ _ _ h h' :=
    ⟨h'.events.trans h.events, h'.calls.trans h.calls, h'.replies.trans h.replies⟩

/-- What a trial run leaves behind: these rows of runs, which are saved, and nothing else that is
stored or that went out. -/
structure World.Tried (w v : World) (new : List Run) : Prop where
  tables : v.tables = { w.tables with runs := w.tables.runs ++ new }
  saved : v.saved = v.tables
  silent : w.Silent v

namespace World.Tried
variable {w v u : World} {new : List Run}

theorem none (hsaved : w.saved = w.tables) : w.Tried w [] :=
  ⟨by rw [List.append_nil], hsaved, refl_of World.Silent w⟩

theorem quiet (h : w.Tried v new) (htables : u.tables = v.tables) (hsaved : u.saved = v.saved)
    (hsilent : v.Silent u) : w.Tried u new :=
  ⟨htables.trans h.tables, by rw [hsaved, htables, h.saved], trans_of World.Silent h.silent hsilent⟩

/-- Undoing changes nothing where everything is saved. -/
theorem rolledBack (h : w.Tried v new) : w.Tried v.rolledBack new :=
  h.quiet h.saved rfl ⟨rfl, rfl, rfl⟩

end World.Tried

structure World.Rehearses (w : World) (id : Uuid) (f : Frame) : Prop where
  fresh : ∀ r ∈ w.tables.runs, r.id ≠ id
  dry : f.context.isDry = true
  row : ∃ row, row.id = id ∧ row.isDry = true ∧ w.Tried f.world [row]

namespace World.Rehearses
variable {w v : World} {id : Uuid} {f g : Frame}

theorem quiet (h : w.Rehearses id f) (hdry : g.context.isDry = true)
    (htables : g.world.tables = f.world.tables) (hsaved : g.world.saved = f.world.saved)
    (hsilent : f.world.Silent g.world) : w.Rehearses id g := by
  obtain ⟨row, hid, hrow, htried⟩ := h.row
  exact ⟨h.fresh, hdry, row, hid, hrow, htried.quiet htables hsaved hsilent⟩

theorem counted (h : w.Rehearses id f) (hg : Counted f.world g.world) (hdry : g.context.isDry = true) :
    w.Rehearses id g := by
  obtain ⟨samples, hg⟩ := hg
  refine h.quiet hdry ?_ ?_ ?_ <;> rw [hg]
  exact ⟨rfl, rfl, rfl⟩

theorem rolledBack (h : w.Rehearses id f) : w.Rehearses id { f with world := f.world.rolledBack } := by
  obtain ⟨row, hid, hrow, htried⟩ := h.row
  exact ⟨h.fresh, h.dry, row, hid, hrow, htried.rolledBack⟩

theorem written (h : w.Rehearses id f) (change : Run → Run) (hid : ∀ r, (change r).id = r.id)
    (hdry : ∀ r, (change r).isDry = r.isDry)
    (htables : v.tables = (f.world.saveRuns (Run.changeRow id change f.world.tables.runs)).tables)
    (hsaved : v.saved = v.tables) (hsilent : f.world.Silent v) :
    w.Rehearses id { f with world := v } := by
  obtain ⟨row, rfl, hrow, htried⟩ := h.row
  refine ⟨h.fresh, h.dry, change row, hid row, (hdry row).trans hrow, ?_, hsaved,
    trans_of World.Silent htried.silent hsilent⟩
  rw [htables, World.saveRuns, htried.tables]
  dsimp only
  rw [Run.changeRow_split h.fresh (by simp)]

end World.Rehearses

/-! ## Actions of a trial run -/

namespace Action
variable {w : World} {id : Uuid} {f : Frame}

theorem attempt_rehearses (react : Reaction) (a : Action) (h : w.Rehearses id f) :
    Ends (attempt react a) f (fun _ g => w.Rehearses id g) fun _ g => w.Rehearses id g := by
  unfold attempt
  cases hc : f.context.budget.consume a.kind with
  | error l => exact .of_error (bind_error (consume_error hc) _) h
  | ok b =>
    refine .step (consume_ok hc) ?_
    have dry : Context.isDry { f.context with budget := b } = true := h.dry
    refine (orFailure_ends (plans_carryOut dry react a f.world)).bind ?_ fun answer g _ hg => ?_
    · exact fun e g hg => h.counted hg.2.1 (hg.2.2 ▸ h.dry)
    · cases answer with
      | ok effect => exact .pure (h.counted hg.1 (hg.2 ▸ h.dry))
      -- all that the run has done so far is saved, so that undoing takes nothing of it back
      | error cause => exact .of_ok rfl (h.counted hg.2.1 (hg.2.2 ▸ h.dry)).rolledBack

theorem perform_rehearses (react : Reaction) (a : Action) (h : w.Rehearses id f) :
    Ends (perform react a) f (fun _ g => w.Rehearses id g) fun _ g => w.Rehearses id g :=
  perform_of_attempt h (attempt_rehearses react a h) fun _ _ _ hg => hg.counted ⟨_, rfl⟩ hg.dry

end Action

/-! ## The run itself -/

namespace Run
variable {react : Reaction} {w : World} {id : Uuid} {f : Frame}

theorem isOpen_of_rehearses (h : w.Rehearses id f) : IsOpen id f.world := by
  obtain ⟨row, hid, -, htried⟩ := h.row
  exact ⟨row, by simp [htried.tables], hid⟩

theorem checkpoint_rehearses (executed : List ActionResult) (consumed : Int)
    (h : w.Rehearses id f) : Ends (checkpoint id executed consumed) f.world
      (fun _ v => w.Rehearses id { f with world := v }) fun _ _ => False := by
  obtain ⟨r, hr⟩ := fetch_isOpen (isOpen_of_rehearses h)
  let change := checkpointed executed consumed
  unfold checkpoint
  refine .step hr (.step (update_eq id change f.world) (.of_ok (a := ()) rfl ?_))
  exact h.written change (fun _ => rfl) (fun _ => rfl)
    (update_rows id change f.world ▸ rfl) rfl ⟨rfl, rfl, rfl⟩

/-- A trial run is not announced when it is closed. -/
theorem finish_rehearses (before : Int) (p : Progress) {c : Context} (hdry : c.isDry = true)
    (h : w.Rehearses id f) : Ends (finish id before p c) f.world
      (fun _ v => w.Rehearses id { f with world := v }) fun _ _ => False := by
  obtain ⟨r, hr⟩ := fetch_isOpen (isOpen_of_rehearses h)
  let change := closed p (c.budget.consumed - before) f.world.clock.wall
  unfold finish
  refine .step hr (.step rfl (.step (update_eq id change f.world) ?_))
  refine .step (a := ()) rfl (.step (a := ()) rfl (.step (a := ()) rfl ?_))
  rw [hdry]
  exact .of_ok (a := ()) rfl (h.written change (fun _ => rfl) (fun _ => rfl)
    (update_rows id change f.world ▸ rfl) rfl ⟨rfl, rfl, rfl⟩)

theorem performFrom_rehearses (taken : Int) (halts : Bool) (actions : List Action) (p : Progress)
    (h : w.Rehearses id f) :
    Ends (performFrom react id taken halts actions p) f (fun _ g => w.Rehearses id g)
      fun _ g => w.Rehearses id g := by
  -- what the run leaves behind is its row alone, after each action as before the first
  induction actions generalizing p f with
  | nil => exact .pure h
  | cons a rest ih =>
    unfold performFrom
    have started : w.Rehearses id (before rest f) := ⟨h.fresh, h.dry, h.row⟩
    refine .step (a := ()) (t := before rest f) rfl ?_
    have performed := a.perform_rehearses react started
    refine (Action.orLimit_ends performed).bind (fun _ _ hg => hg.2) fun answer g _ hg => ?_
    cases answer with
    | error l => exact .of_ok rfl hg.rolledBack
    | ok r =>
      refine .step (context_eq g) ?_
      refine (Ends.lift (checkpoint_rehearses _ _ hg)).bind (fun _ _ hk => hk.elim) ?_
      rintro - ⟨v, _⟩ - ⟨hv, rfl⟩
      exact .ite (fun _ => .pure hv) fun _ => .ite (fun _ => .pure hv) fun _ => ih _ hv

theorem goThrough_rehearses (actions : List Action) (halts : Bool) (h : w.Rehearses id f) :
    Ends (goThrough react id actions halts) f (fun _ g => w.Rehearses id g)
      fun _ g => w.Rehearses id g := by
  unfold goThrough
  refine .step (context_eq f) ?_
  refine (performFrom_rehearses _ halts actions .start h).bind (fun _ _ hg => hg) fun p g _ hg => ?_
  refine .step (context_eq g) ?_
  refine (Ends.lift (finish_rehearses _ p hg.dry hg)).bind (fun _ _ hk => hk.elim) ?_
  rintro - ⟨v, _⟩ - ⟨hv, rfl⟩
  cases p.limit with
  | none => exact .pure hv
  | some l =>
    have told (u : World) (hu : w.Rehearses id { g with world := u }) : Ends (do
        if g.context.parent.isSome then throw (.limit l)
        return result id p g.context : Scoped RunResult) { g with world := u }
        (fun _ g => w.Rehearses id g) fun _ g => w.Rehearses id g :=
      .guarded (fun _ => hu) fun _ => .pure hu
    dsimp only
    split
    · exact .step (lift_ok rfl) (told _ (hv.quiet hv.dry rfl rfl ⟨rfl, rfl, rfl⟩))
    · exact told v hv

/-- The row that a trial run opens says that it is one; without a row nothing was done. -/
theorem openRun_rehearses {c : Context} (hdry : c.isDry = true) (hfree : w.RunsFree)
    (hsaved : w.saved = w.tables) : Ends (openRun c) w
      (fun row v => w.Rehearses row.id { world := v, context := c }) fun _ v => w.Tried v [] := by
  unfold openRun
  refine .step rfl (.bind (insertTaken_ends _ _ w) ?_ ?_)
  · rintro e v ⟨rfl, -⟩
    exact (World.Tried.none hsaved).quiet rfl rfl ⟨rfl, rfl, rfl⟩
  · rintro row v - ⟨hrow, rfl⟩
    cases hrow
    refine .step (a := ()) rfl (.pure ⟨hfree _ (Nat.le_refl _), hdry, ?_⟩)
    exact ⟨_, rfl, hdry, rfl, rfl, ⟨rfl, rfl, rfl⟩⟩

end Run

/-- After a trial run there is at most one row more, which says that it was a trial. -/
def World.HasTrial (w v : World) : Prop :=
  ∃ new : List Run, new.length ≤ 1 ∧ (∀ r ∈ new, r.isDry = true) ∧ w.Tried v new

theorem World.Tried.hasTrial {w v : World} (h : w.Tried v []) : w.HasTrial v :=
  ⟨[], by simp, by simp, h⟩

theorem World.Rehearses.hasTrial {w v : World} {id : Uuid} {f : Frame} (h : w.Rehearses id f)
    (htables : v.tables = f.world.tables) (hsaved : v.saved = f.world.saved)
    (hsilent : f.world.Silent v) : w.HasTrial v := by
  obtain ⟨row, -, hrow, htried⟩ := h.row
  refine ⟨[row], Nat.le_refl 1, fun r hr => ?_, htried.quiet htables hsaved hsilent⟩
  rw [List.mem_singleton.mp hr]
  exact hrow

theorem Run.runActions_trial (react : Reaction) (actions : List Action) (halts : Bool) {f : Frame}
    (hdry : f.context.isDry = true) (hsaved : f.world.saved = f.world.tables)
    (hfree : f.world.RunsFree) : Ends (runActions react actions halts) f
      (fun _ g => f.world.HasTrial g.world) fun _ g => f.world.HasTrial g.world := by
  unfold runActions
  refine .step (context_eq f) ?_
  refine (Ends.lift (openRun_rehearses hdry hfree hsaved)).bind ?_ ?_
  · exact fun _ _ h => h.hasTrial
  rintro row ⟨v, _⟩ - ⟨hv, rfl⟩
  refine .step (a := ()) rfl (marked_ends (.refl ?_)).ends
  have marked : f.world.Rehearses row.id (Frame.mark (some row.id.text)
      { world := v, context := { f.context with run := row.id } }) :=
    hv.quiet hdry rfl rfl ⟨rfl, rfl, rfl⟩
  refine (goThrough_rehearses actions halts marked).mono ?_ ?_
  · exact fun _ _ h mark => h.hasTrial rfl rfl ⟨rfl, rfl, rfl⟩
  · exact fun _ _ h mark => h.hasTrial rfl rfl ⟨rfl, rfl, rfl⟩

namespace Workflow

/-- A trial run of a workflow has no side effects, whatever its actions are, whether it halts at
failures, and whatever would follow upon its writes. Where everything was saved, it leaves at most
one row of a run, which says that it was a trial; all other tables are as they were, no other
service was called, and no event was published. The same holds where it fails. -/
theorem execute_trial (react : Reaction) (wf : Workflow) (record : Record) {c : Context} {w : World}
    (hdry : c.isDry = true) (hsaved : w.saved = w.tables) (hfree : w.RunsFree) :
    Ends (runIn c (wf.execute react record)) w (fun _ v => w.HasTrial v)
      fun _ v => w.HasTrial v := by
  have untouched : w.HasTrial w := (World.Tried.none hsaved).hasTrial
  refine runIn_ends ?_
  unfold execute
  refine .step (a := ()) rfl (.step (context_eq _) ?_)
  refine .ite (fun _ => .pure untouched) fun _ => ?_
  obtain ⟨run, hrun⟩ := runWithKey?_eq c.key w
  refine .step (lift_ok hrun) ?_
  split
  · exact .pure untouched
  · refine .ite (fun hacts => absurd hacts (by simp [hdry])) fun _ => ?_
    obtain ⟨m, -, hm⟩ := wf.cappedBudget_eq (wf.considering record c)
    refine .step (a := ()) rfl (Run.runActions_trial react _ _ ?_ hsaved hfree)
    exact (congrArg Context.isDry hm).trans hdry

def noting : Workflow where
  id := none
  name := "note"
  module := "deals"
  trigger := .manual
  config := []
  conditions := none
  actions := [⟨"title", none, .updateFields [("title", .str "Won")]⟩, ⟨"note", none, .addNote "won" true⟩]
  isEnabled := true
  haltOnFailure := true
  runCountCap := none
  cooldownSeconds := none

def notingContext : Context := { Launch.retitledContext with isDry := true }

set_option maxRecDepth 10000 in
theorem noting_completed : passes (runIn notingContext (noting.execute (reaction 2) notingContext.record))
    Launch.retitledDeals (fun out v => out.1.status = .completed && v.tables.runs.length == 1) = true := by
  decide +kernel

/-- The trial run goes through both actions, and leaves its row and nothing else. -/
theorem execute_trial_noting : notingContext.isDry = true
    ∧ Launch.retitledDeals.saved = Launch.retitledDeals.tables ∧ Launch.retitledDeals.RunsFree
    ∧ Ends (runIn notingContext (noting.execute (reaction 2) notingContext.record))
      Launch.retitledDeals (fun out v => out.1.status = .completed ∧ v.tables.runs.length = 1
        ∧ Launch.retitledDeals.HasTrial v) fun _ _ => False := by
  have hsaved : Launch.retitledDeals.saved = Launch.retitledDeals.tables := by
    simp [Launch.retitledDeals]
  have hfree := Launch.retitledDeals_runsFree
  have trial := execute_trial (reaction 2) noting notingContext.record (c := notingContext) rfl hsaved
    hfree
  refine ⟨rfl, hsaved, hfree, ((Ends.of_passes noting_completed).and trial).mono ?_ ?_⟩
  · rintro out v ⟨hpassed, htrial⟩
    rw [Bool.and_eq_true, decide_eq_true_iff, beq_iff_eq] at hpassed
    exact ⟨hpassed.1, hpassed.2, htrial⟩
  · exact fun _ _ h => h.1

end Workflow
end RecordFlow
