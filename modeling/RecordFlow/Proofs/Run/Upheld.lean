import RecordFlow.Proofs.Record.Write
import RecordFlow.Proofs.Run.Reaction
import RecordFlow.Workflow.Jobs

/-! # What runs uphold

A relation between worlds that does not mind the rows that actions write to is upheld by all actions,
if it is upheld by the runs that these trigger. A relation that does not mind the row of a run either
is upheld by every run, whatever its context is, whatever its actions do and whatever they trigger.
What a failed part did is undone before anything of it is saved.
-/
namespace RecordFlow
open RecordFlow.Flow Scoped
variable {R : World → World → Prop} {α β : Type}

def World.committed (w : World) : World := { w with saved := w.tables }

def World.rolledBack (w : World) : World := { w with tables := w.saved }

/-- An operation that upholds a relation, if it is undone where it fails. -/
abbrev Upholds (R : World → World → Prop) (part : Flow α) : Prop := Steady World.rolledBack R part

def InWorlds (R : World → World → Prop) (f g : Frame) : Prop := R f.world g.world

abbrev UpholdsIn (R : World → World → Prop) (part : Scoped α) : Prop :=
  Steady Run.rolledBack (InWorlds R) part

abbrev UpholdsReaction (R : World → World → Prop) (react : Reaction) : Prop :=
  ∀ before after, UpholdsIn R (react before after)

abbrev UpholdsRuns (R : World → World → Prop) (react : Reaction) : Prop :=
  ∀ actions halts, UpholdsIn R (Run.runActions react actions halts)

/-- A relation that does not mind what actions do beside scheduling jobs and enrolling records; how it
bears these is told of each relation. What is noted of runs it may mind. -/
class Mild (R : World → World → Prop) : Prop extends Lenient R, Schedules R where
  records : Indifferent R StoredRecord
  children : Indifferent R Child
  rules : Indifferent R AssignmentRule
  messages : Indifferent R Message
  cadences : Indifferent R Cadence
  apart : ∀ w v : World, Outside w v →
    (∃ more, v.journal.audit = w.journal.audit ++ more ∧ ∀ e ∈ more, e.tellsRun = false) → R w v
  amongst : ∀ (writes : Nat) (w v : World), R { w with rivalWrites := writes } v →
    R w { v with rivalWrites := 0 }
  commits : ∀ w : World, R w w.committed
  undone : ∀ w : World, R w w.rolledBack
  enrolls : ∀ (cadence record : Uuid) (by_ : Value), Upholds R (Enrollment.enroll cadence record by_)
  unenrolls : ∀ (record : Uuid) (cadence : Option Uuid) (reason : String) (actor : Option String),
    Upholds R (Enrollment.unenroll record cadence reason actor)

/-- A relation that is upheld by all runs, however many levels of nesting there are below them, and
where a run is hung under the one that it goes on with. -/
class Bearing (R : World → World → Prop) : Prop extends Mild R where
  cooldowns : Indifferent R Cooldown
  workflows : Indifferent R StoredWorkflow
  runs : ∀ levels, UpholdsRuns R (Workflow.reactionOn (fun _ _ => pure ()) levels)
  goesOn : ∀ (levels : Nat) (c : Context) (actions : List Action) (halts : Bool)
    (parent : Option Uuid), Upholds R (do
      let (r, _) ← runIn c
        (Run.runActions (Workflow.reactionOn (fun _ _ => pure ()) levels) actions halts)
      Run.linkParent r.run parent
      return r)

/-- A relation that does not mind how a run that is open goes on. Its row is saved whenever it is written
to. -/
class Recording (R : World → World → Prop) : Prop extends Mild R where
  outside : ∀ w v : World, Outside w v → R w v
  savesRun : ∀ (w : World) (id : Uuid) (change : Run → Run), (∀ r, (change r).head = r.head) →
    R w (w.saveRuns (Run.changeRow id change w.tables.runs))
  apart := fun w v h _ => outside w v h

class Tolerant (R : World → World → Prop) : Prop extends Recording R where
  cooldowns : Indifferent R Cooldown
  workflows : Indifferent R StoredWorkflow
  opens : ∀ c : Context, Upholds R (Run.openRun c)

/-- A relation that does not mind the world around the tables, the clock and the settings included. -/
class Timeless (R : World → World → Prop) : Prop where
  adjusts : ∀ (w : World) (clock : Calendar.Moment) (settings : Settings) (wiring : Wiring)
    (ambient : Ambient) (replies : List Reply), R w { w with clock, settings, wiring, ambient, replies }

class Aiding (R : World → World → Prop) : Prop extends Lenient R, Schedules R where
  children : Indifferent R Child
  rules : Indifferent R AssignmentRule
  messages : Indifferent R Message
  apart : ∀ w v : World, Outside w v →
    (∃ more, v.journal.audit = w.journal.audit ++ more ∧ ∀ e ∈ more, e.tellsRun = false) → R w v
  undone : ∀ w : World, R w w.rolledBack
  enrolls : ∀ (cadence record : Uuid) (by_ : Value), Upholds R (Enrollment.enroll cadence record by_)
  unenrolls : ∀ (record : Uuid) (cadence : Option Uuid) (reason : String) (actor : Option String),
    Upholds R (Enrollment.unenroll record cadence reason actor)

class Attending (R : World → World → Prop) : Prop extends Aiding R where
  outside : ∀ w v : World, Outside w v → R w v
  savesRun : ∀ (w : World) (id : Uuid) (change : Run → Run), (∀ r, (change r).head = r.head) →
    R w (w.saveRuns (Run.changeRow id change w.tables.runs))

attribute [instance] Mild.records Mild.children Mild.rules Mild.messages Mild.cadences
  Bearing.cooldowns Bearing.workflows Tolerant.cooldowns Aiding.children Aiding.rules Aiding.messages

instance [Mild R] : Aiding R where
  children := inferInstance
  rules := inferInstance
  messages := inferInstance
  apart := Mild.apart
  undone := Mild.undone
  enrolls := Mild.enrolls
  unenrolls := Mild.unenrolls

instance [Recording R] : Attending R where
  toAiding := inferInstance
  outside := Recording.outside
  savesRun := Recording.savesRun

instance [Aiding R] : Undoes World.rolledBack R where
  undone := Aiding.undone

/-- A relation between frames that bears what a relation between worlds does in one context, and a
context that is changed but goes on with the same record. -/
class Frames (R : outParam (World → World → Prop)) (S : Frame → Frame → Prop) : Prop
    extends Undoes Run.rolledBack S where
  aside : ∀ f g : Frame, R f.world g.world → g.context = f.context → S f g
  reframed : ∀ (f : Frame) (c : Context), c.record.id = f.context.record.id →
    S f { f with context := c }

theorem upholds_commit [Mild R] : Upholds R commit := .modify Mild.commits

/-- To a relation that only minds the tables rivals are nothing. -/
theorem amongst_of_tables [IsPreorder World R] (h : ∀ w v : World, v.tables = w.tables →
    v.saved = w.saved → v.numbers = w.numbers → R w v) (writes : Nat) (w v : World)
    (hv : R { w with rivalWrites := writes } v) : R w { v with rivalWrites := 0 } := by
  have before : R w { w with rivalWrites := writes } := h _ _ rfl rfl rfl
  have after : R v { v with rivalWrites := 0 } := h _ _ rfl rfl rfl
  exact trans_of R before (trans_of R hv after)

structure Around (w v : World) : Prop extends Outside w v where
  audit : v.journal.audit = w.journal.audit

theorem Around.ambient (w : World) (a : Ambient) : Around w { w with ambient := a } :=
  ⟨⟨rfl, rfl, rfl, Nat.le_refl _, rfl, rfl, rfl, List.prefix_rfl⟩, rfl⟩

theorem Around.kept [Aiding R] {w v : World} (h : Around w v) : R w v :=
  Aiding.apart w v h.toOutside ⟨[], h.audit.trans (List.append_nil _).symm, by simp⟩

theorem upholds_around [Aiding R] {change : World → World} (h : ∀ w, Around w (change w)) :
    Upholds R (modify change) :=
  .modify fun w => (h w).kept

theorem upholds_note [Aiding R] {actor : Value} {entityType entityId action : String}
    {before after : Value} (h : entityType ≠ "automation.run") :
    Upholds R (note actor entityType entityId action before after) := .modify fun w => by
  refine Aiding.apart w _ ⟨rfl, rfl, rfl, Nat.le_refl _, rfl, rfl, rfl, List.prefix_rfl⟩
    ⟨_, rfl, fun e he => ?_⟩
  rw [List.mem_singleton.mp he]
  exact decide_eq_false h

section Undone
variable [Undoes World.rolledBack R]

instance : Frames R (InWorlds R) where
  refl f := refl_of R f.world
  trans _ _ _ h h' := trans_of R h h'
  undone f := (Undoes.undone f.world : R f.world f.world.rolledBack)
  aside _ _ h _ := h
  reframed f _ _ := refl_of R f.world

theorem Incidental.upholds {part : Flow α} (h : Incidental R part) : Upholds R part := .of_keeps h

theorem upholds_orThrow (v : Except Failure α) : Upholds R (orThrow v) := by
  cases v with
  | ok a => exact .pure a
  | error e => exact .throw e

theorem upholds_valid {checked : Schema.Checked α} {rest : α → Flow β}
    (h : ∀ a, checked = .valid a → Upholds R (rest a)) : Upholds R (valid checked >>= rest) := by
  cases checked with
  | valid a => exact fun w => .step rfl (h a rfl w)
  | invalid issues => exact fun w => .of_error (bind_error rfl rest) (Undoes.undone w)

end Undone

/-! ## Parts of runs -/

section Parts
variable {S : Frame → Frame → Prop} {x : Scoped α} {part : Flow α}

section Frames
variable [frames : Frames R S]
include frames

theorem Upholds.lift (h : Upholds R part) : Steady Run.rolledBack S (liftM part : Scoped α) :=
  fun f => by
    cases hp : part f.world with
    | ok a w => exact .of_ok (lift_ok hp) (Frames.aside f _ (h.ok hp) rfl)
    | error e w => exact .of_error (lift_error hp) (Frames.aside f _ (h.error hp) rfl)

theorem steady_valid {checked : Schema.Checked α} {rest : α → Scoped β}
    (h : ∀ a, checked = .valid a → Steady Run.rolledBack S (rest a)) :
    Steady Run.rolledBack S ((liftM (valid checked : Flow α) : Scoped α) >>= rest) := by
  cases checked with
  | valid a => exact fun f => .step (lift_ok rfl) (h a rfl f)
  | invalid issues => exact fun f => .of_error (bind_error (lift_error rfl) rest) (Undoes.undone f)

theorem IncidentalIn.steady (h : IncidentalIn R x) : Steady Run.rolledBack S x :=
  .of_keeps (h.mono (fun _ h => h) fun f g h => Frames.aside f g h.world h.context)

theorem steady_changeContext {change : Context → Context}
    (h : ∀ c, (change c).record.id = c.record.id) : Steady Run.rolledBack S (changeContext change) :=
  .modify fun f => Frames.reframed f _ (h f.context)

end Frames

variable [Undoes Run.rolledBack S]

theorem steady_context : Steady Run.rolledBack S context := .looks (.read fun f => ⟨f.context, rfl⟩)

theorem Steady.orLimit {y : Except LimitReached α → Scoped β} (hx : Steady Run.rolledBack S x)
    (hok : ∀ a, Steady Run.rolledBack S (y (.ok a)))
    (herror : ∀ l, Recovers Run.rolledBack S (y (.error l))) :
    Steady Run.rolledBack S (orLimit x >>= y) := fun f => by
  cases h : x f with
  | ok a g =>
    refine .step (a := .ok a) (t := g) (by rw [Scoped.orLimit, h]) ?_
    exact (hok a g).mono (fun _ _ => trans_of S (hx.ok h)) fun _ _ => trans_of S (hx.ok h)
  | error e g =>
    cases e with
    | limit l =>
      refine .step (a := .error l) (t := g) (by rw [Scoped.orLimit, h]) ?_
      exact (herror l g).mono (fun _ _ => trans_of S (hx.error h)) fun _ _ =>
        trans_of S (hx.error h)
    | _ => exact .of_error (bind_error (by rw [Scoped.orLimit, h]) y) (hx.error h)

theorem Steady.orFailure {y : Except Failure α → Scoped β} (hx : Steady Run.rolledBack S x)
    (hok : ∀ a, Steady Run.rolledBack S (y (.ok a)))
    (herror : ∀ e, Recovers Run.rolledBack S (y (.error e))) :
    Steady Run.rolledBack S (orFailure x >>= y) := fun f => by
  cases h : x f with
  | ok a g =>
    refine .step (a := .ok a) (t := g) (by rw [Scoped.orFailure, h]) ?_
    exact (hok a g).mono (fun _ _ => trans_of S (hx.ok h)) fun _ _ => trans_of S (hx.ok h)
  | error e g =>
    cases e with
    | limit l => exact .of_error (bind_error (by rw [Scoped.orFailure, h]) y) (hx.error h)
    | _ =>
      refine .step (a := .error _) (t := g) (by rw [Scoped.orFailure, h]) ?_
      exact (herror _ g).mono (fun _ _ => trans_of S (hx.error h)) fun _ _ =>
        trans_of S (hx.error h)

omit [Undoes Run.rolledBack S] in
theorem recovers_rollback {y : Unit → Scoped β} (hy : Steady Run.rolledBack S (y ())) :
    Recovers Run.rolledBack S (liftM rollback >>= y) :=
  Steady.recovers (fun _ => ⟨(), rfl⟩) fun _ => hy

omit [Undoes Run.rolledBack S] in
theorem UpholdsIn.nested (h : UpholdsIn R x) (inner : Context) : UpholdsIn R (nested inner x) :=
  fun _ => (Workflow.nested_ends (.refl (h _))).ends

omit [Undoes Run.rolledBack S] in
theorem UpholdsIn.runIn (h : UpholdsIn R x) (c : Context) : Upholds R (runIn c x) := fun _ =>
  runIn_ends (h _)

end Parts

/-! ## Actions -/

namespace Action
variable {react : Reaction}

theorem upholdsIn_applyPatch [Lenient R] [Undoes World.rolledBack R] [Indifferent R StoredRecord]
    (hreact : UpholdsReaction R react) (changes : Fields) : UpholdsIn R (applyPatch react changes) := by
  unfold applyPatch
  refine .bind steady_context fun before => ?_
  refine .bind (Incidental.upholds (incidental_patch _ _ _)).lift fun after => ?_
  refine .bind (.modify fun f => refl_of R f.world) fun _ => ?_
  exact .bind (Upholds.lift (.looks .wiring)) fun wiring => .ite (hreact _ _) (.pure _)

/-! What an action does stays within a relation between frames, if the patches of its record do. -/

variable {S : Frame → Frame → Prop} [frames : Frames R S]
include frames

section Records
variable [Lenient R] (hpatch : ∀ changes, Steady Run.rolledBack S (applyPatch react changes))
include hpatch

theorem steady_updateFields (fields : Fields) :
    Steady Run.rolledBack S (updateFields react fields) := by
  unfold updateFields
  refine .bind steady_context fun c => ?_
  refine .bind (incidentalIn_readable (R := R) _).steady fun changes => ?_
  refine .bind (incidentalIn_readable (R := R) _).steady fun before => .ite (.pure _) ?_
  exact .bind (hpatch changes) fun _ => .pure _

omit [Lenient R] in
theorem steady_moveStage (stage : String) : Steady Run.rolledBack S (moveStage react stage) := by
  unfold moveStage
  refine .bind steady_context fun c => .ite (.pure _) (.ite (.pure _) ?_)
  exact .bind (hpatch _) fun _ => .pure _

theorem steady_assignOwner [Undoes World.rolledBack R] [Indifferent R AssignmentRule]
    (rule : Option Uuid) (strategy : Option Strategy) (user : Option String) :
    Steady Run.rolledBack S (assignOwner react rule strategy user) := by
  unfold assignOwner
  refine .bind steady_context fun c => ?_
  refine .bind (incidentalIn_chooseOwner (R := R) _ _ _).steady fun choice => ?_
  refine .ite (.pure _) (.ite (.pure _) (.ite (.pure _) ?_))
  refine .bind (hpatch _) fun _ => ?_
  refine .bind (incidentalIn_lift (R := R)
    (incidental_note (by decide) (.inl (by decide)))).steady fun _ => ?_
  exact .bind (Upholds.lift (R := R) (.looks (.valid anyCause _))) fun _ => .pure _

end Records

variable [aiding : Aiding R]
include aiding

theorem steady_startCadence (cadence : Uuid) : Steady Run.rolledBack S (startCadence cadence) := by
  unfold startCadence
  refine .bind steady_context fun c => .ite (.pure _) ?_
  refine .bind (Upholds.lift (R := R) (.looks .wiring)) fun wiring => .guarded ?_
  exact .bind (Upholds.lift (Aiding.enrolls _ _ _)) fun _ => .pure _

theorem steady_stopCadence (cadence : Option Uuid) :
    Steady Run.rolledBack S (stopCadence cadence) := by
  unfold stopCadence
  refine .bind steady_context fun c => .ite (.pure _) ?_
  refine .bind (Upholds.lift (R := R) (.looks .wiring)) fun wiring => .guarded ?_
  exact .bind (Upholds.lift (Aiding.unenrolls _ _ _ _)) fun _ => .pure _

variable (hpatch : ∀ changes, Steady Run.rolledBack S (applyPatch react changes))
include hpatch

theorem steady_carryOut (a : Action) : Steady Run.rolledBack S (carryOut react a) := by
  unfold carryOut
  split
  · exact steady_updateFields hpatch _
  · exact steady_assignOwner hpatch _ _ _
  · exact (incidentalIn_createTask (R := R) _).steady
  · exact (incidentalIn_createActivity (R := R) _).steady
  · exact (incidentalIn_addNote (R := R) _ _).steady
  · exact (incidentalIn_notify (R := R) _).steady
  · exact steady_moveStage hpatch _
  · exact steady_startCadence _
  · exact steady_stopCadence _
  · exact (incidentalIn_draftEnrollment (R := R) _).steady
  · exact (incidentalIn_sendEmail (R := R) _).steady
  · exact (incidentalIn_sendSms (R := R) _).steady
  · exact (incidentalIn_delayWait (R := R) _).steady
  · exact (incidentalIn_postWebhook (R := R) _ _).steady

theorem steady_perform (a : Action) : Steady Run.rolledBack S (perform react a) := by
  have consumed : Steady Run.rolledBack S (consume a) := by
    unfold consume
    refine .bind steady_context fun c => ?_
    split
    · exact steady_changeContext fun _ => rfl
    · exact .throw _
  have attempted : Steady Run.rolledBack S (attempt react a) := by
    unfold attempt
    refine .bind consumed fun _ => (steady_carryOut hpatch a).orFailure (fun _ => .pure _) ?_
    exact fun _ => recovers_rollback (.pure _)
  have counted (r : ActionResult) : Steady Run.rolledBack S (do
      (count (.action a.kind r.status.name) : Flow Unit)
      return r : Scoped ActionResult) :=
    .bind (incidentalIn_lift (R := R) (incidental_count _)).steady fun _ => .pure _
  unfold perform
  refine .bind steady_context fun c => ?_
  split
  · exact .bind (.pure _) counted
  · exact .bind attempted counted

omit frames aiding hpatch in
theorem upholdsIn_perform [Mild R] (hreact : UpholdsReaction R react) (a : Action) :
    UpholdsIn R (perform react a) :=
  steady_perform (upholdsIn_applyPatch hreact) a

end Action

/-! ## Runs -/

namespace Run

theorem upholds_tellLimit [Aiding R] (l : LimitReached) (c : Context) : Upholds R (tellLimit l c) :=
  .bind (Incidental.upholds (incidental_count _)) fun _ => upholds_note (by decide)

section Attending
variable [attending : Attending R]

theorem upholds_update {id : Uuid} {change : Run → Run} (h : ∀ r, (change r).head = r.head)
    {rest : Unit → Flow α} (hrest : Upholds R (rest ())) :
    Upholds R (update id change >>= fun _ => commit >>= rest) := fun w => by
  have saved : R w (w.saveRuns (changeRow id change w.tables.runs)) :=
    Attending.savesRun w id change h
  refine .step (update_eq id change w) (.step (a := ()) rfl ?_)
  rw [update_rows]
  exact (hrest _).mono (fun _ _ => trans_of R saved) fun _ _ => trans_of R saved

theorem upholds_commit_pure {id : Uuid} {change : Run → Run} (h : ∀ r, (change r).head = r.head) :
    Upholds R (do update id change; commit) := by
  have done : (do update id change; commit : Flow Unit)
      = (update id change >>= fun _ => commit >>= fun _ => pure ()) := by
    simp only [bind_pure_unit]
  rw [done]
  exact upholds_update h (.pure ())

theorem upholds_checkpoint (id : Uuid) (executed : List ActionResult) (consumed : Int) :
    Upholds R (checkpoint id executed consumed) :=
  .bind (.looks (.fetch anyCause Run id)) fun _ => upholds_commit_pure fun _ => rfl

theorem upholds_finish (id : Uuid) (before : Int) (p : Progress) (c : Context) :
    Upholds R (finish id before p c) := by
  unfold finish
  refine .bind (.looks (.fetch anyCause Run id)) fun _ => .bind (.looks .now) fun t => ?_
  refine upholds_update ?_ ?_
  · exact fun _ => rfl
  · refine .bind (Incidental.upholds (incidental_count _)) fun _ => ?_
    refine .bind (.modify fun w => ?_) fun _ => .ite ?_ (.pure _)
    · exact Attending.outside w _ ⟨rfl, rfl, rfl, Nat.le_refl _, rfl, rfl, rfl, List.prefix_rfl⟩
    · exact Incidental.upholds (incidental_announce _ _ _)

theorem upholds_linkParent (run parent : Option Uuid) : Upholds R (linkParent run parent) := by
  unfold linkParent
  split
  · exact .bind (.looks (.find? Run _)) fun found => .ite (upholds_commit_pure fun _ => rfl) (.pure _)
  · exact .pure _

variable {S : Frame → Frame → Prop} [frames : Frames R S] {react : Reaction}
variable (hperform : ∀ a, Steady Run.rolledBack S (Action.perform react a))
include attending frames hperform

theorem steady_performFrom (run : Uuid) (taken : Int) (halts : Bool) (actions : List Action)
    (p : Progress) : Steady Run.rolledBack S (performFrom react run taken halts actions p) := by
  induction actions generalizing p with
  | nil => exact .pure p
  | cons a rest ih =>
    unfold performFrom
    refine .bind (steady_changeContext fun _ => rfl) fun _ => ?_
    refine (hperform a).orLimit (fun r => ?_) fun l => recovers_rollback (.pure _)
    refine .bind steady_context fun c => ?_
    refine .bind (upholds_checkpoint (R := R) _ _ _).lift fun _ => ?_
    exact .ite (.pure _) (.ite (.pure _) (ih _))

theorem steady_goThrough (run : Uuid) (actions : List Action) (halts : Bool) :
    Steady Run.rolledBack S (goThrough react run actions halts) := by
  unfold goThrough
  refine .bind steady_context fun c => ?_
  refine .bind (steady_performFrom hperform _ _ _ _ _) fun p => ?_
  refine .bind steady_context fun d => .bind (upholds_finish (R := R) _ _ _ _).lift fun _ => ?_
  cases p.limit with
  | none => exact .pure _
  | some l =>
    have answered : Steady Run.rolledBack S (do
        if d.parent.isSome then throw (.limit l)
        return result run p d : Scoped RunResult) := .guarded (.pure _)
    dsimp only
    split
    · exact .bind (upholds_tellLimit (R := R) l d).lift fun _ => answered
    · exact answered

/-- What a run does once it is opened. -/
theorem steady_opened (run : Uuid) (actions : List Action) (halts : Bool) :
    Steady Run.rolledBack S (do
      changeContext fun c => { c with run := some run }
      marked run (goThrough react run actions halts)) := by
  have outside (mark : Option String) (f : Frame) : Ends
      (liftM (modify fun w => { w with ambient := { w.ambient with run := mark } } : Flow Unit) :
        Scoped Unit) f
      (fun _ g => S f g ∧ S (rolledBack f) (rolledBack g)) fun _ _ => False :=
    .of_ok (a := ()) rfl ⟨Frames.aside _ _ (Around.ambient f.world _).kept rfl,
      Frames.aside _ _ (Around.ambient f.world.rolledBack _).kept rfl⟩
  refine .bind (steady_changeContext fun _ => rfl) fun _ => ?_
  unfold marked
  refine .bind .get fun f => .bind ?_ fun _ => ?_
  · exact Upholds.lift (R := R) (upholds_around fun _ => .ambient _ _)
  · exact .tryFinally (steady_goThrough hperform run actions halts) (outside _)

/-- A run is not opened, and only a number is used up, or what is opened goes on as it may. -/
theorem runActions_steady (actions : List Action) (halts : Bool) (f : Frame) :
    Ends (runActions react actions halts) f
      (fun _ g => ∃ row v, Opens f.context f.world row v ∧ S ⟨v, f.context⟩ g)
      fun _ g => g.world = f.world.useNumber .run
        ∨ ∃ row v, Opens f.context f.world row v ∧ S ⟨v, f.context⟩ (rolledBack g) := by
  unfold runActions
  have opens := (openRun_ends f.context f.world).and (openRun_refused f.context f.world)
  refine .step (context_eq f) ((Ends.lift opens).bind (fun _ _ h => .inl h.2) ?_)
  rintro row ⟨v, _⟩ - ⟨⟨hrow, -⟩, rfl⟩
  exact (steady_opened hperform row.id actions halts ⟨v, f.context⟩).mono
    (fun _ _ h => ⟨row, v, hrow, h⟩) fun _ _ h => .inr ⟨row, v, hrow, h⟩

end Attending

section Recording
variable [Recording R] {react : Reaction} (hreact : UpholdsReaction R react)
include hreact

theorem upholdsIn_opened (run : Uuid) (actions : List Action) (halts : Bool) :
    UpholdsIn R (do
      changeContext fun c => { c with run := some run }
      marked run (goThrough react run actions halts)) :=
  steady_opened (Action.upholdsIn_perform hreact) run actions halts

theorem runActions_upheld (actions : List Action) (halts : Bool) (f : Frame) :
    Ends (runActions react actions halts) f
      (fun _ g => ∃ row v, Opens f.context f.world row v ∧ R v g.world)
      fun _ g => g.world = f.world.useNumber .run
        ∨ ∃ row v, Opens f.context f.world row v ∧ R v g.world.rolledBack :=
  runActions_steady (Action.upholdsIn_perform hreact) actions halts f

end Recording

/-- Every run is upheld, however it is opened. -/
theorem upholdsIn_runActions [Tolerant R] {react : Reaction} (hreact : UpholdsReaction R react)
    (actions : List Action) (halts : Bool) : UpholdsIn R (runActions react actions halts) := by
  unfold runActions
  refine .bind steady_context fun c => .bind (Upholds.lift (Tolerant.opens c)) fun run => ?_
  exact upholdsIn_opened hreact run.id actions halts

end Run

namespace Workflow

section Launches
variable [Undoes World.rolledBack R]

theorem upholds_triggered (module : Value) (trigger : String) :
    Upholds R (StoredWorkflow.triggered module trigger) :=
  .looks (.bind (.taken anyCause _) fun _ => .bind (.all StoredWorkflow) fun _ => .pure _)

theorem upholds_reread (isDry : Bool) (current : Record) :
    Upholds R (if isDry then pure none else Record.get? current.id : Flow (Option Record)) :=
  .ite (.pure none) (.looks (.recordGet? anyCause _))

/-- Workflows that are launched one after the other, by themselves. -/
theorem upholds_executeEach {launch : Workflow → Record → Flow RunResult} {rows : List StoredWorkflow}
    (hlaunch : ∀ row ∈ rows, ∀ w, row.definition = .valid w → ∀ r, Upholds R (launch w r))
    (isDry : Bool) (previous : Option Record) (current : Record) :
    Upholds R (executeEach launch isDry previous rows current) := by
  induction rows generalizing current with
  | nil => exact .pure _
  | cons row rest ih =>
    have ih := ih fun row hrow => hlaunch row (List.mem_cons_of_mem _ hrow)
    have hlaunch := hlaunch row List.mem_cons_self
    unfold executeEach
    generalize row.definition = defined at hlaunch
    refine upholds_valid fun w hw => .bind (upholds_orThrow _) fun found => .ite ?_ (ih current)
    refine .bind (hlaunch w hw current) fun r => .ite (.pure _) ?_
    exact .bind (upholds_reread isDry current) fun _ => .bind (ih _) fun _ => .pure _

/-- The record that is gone on with is the same, as it is stored by now. -/
theorem reread_ends (isDry : Bool) (current : Record) (w : World) :
    Yields (if isDry then pure none else Record.get? current.id : Flow (Option Record)) w
      fun found _ => (found.getD current).id = current.id := by
  refine .ite (fun _ => .pure rfl) fun _ => ?_
  cases hget : Record.get? current.id w with
  | error e v => exact .of_error hget trivial
  | ok found v =>
    refine .of_ok hget ?_
    cases found with
    | none => rfl
    | some r => exact (Record.holds_of_get? hget).2.1

section Nested
variable {S : Frame → Frame → Prop} [frames : Frames R S]
include frames

/-- The same inside a run, where all that is launched is for the same record. -/
theorem steady_executeEach {launch : Workflow → Record → Scoped RunResult} {rows : List StoredWorkflow}
    {current : Record}
    (hlaunch : ∀ row ∈ rows, ∀ w, row.definition = .valid w → ∀ r : Record, r.id = current.id →
      Steady Run.rolledBack S (launch w r))
    (isDry : Bool) (previous : Option Record) :
    Steady Run.rolledBack S (executeEach launch isDry previous rows current) := by
  induction rows generalizing current with
  | nil => exact .pure _
  | cons row rest ih =>
    have ih {r : Record} (hr : r.id = current.id) :
        Steady Run.rolledBack S (executeEach launch isDry previous rest r) :=
      ih fun row hrow w hw s hs => hlaunch row (List.mem_cons_of_mem _ hrow) w hw s (hs.trans hr)
    have hlaunch := hlaunch row List.mem_cons_self
    unfold executeEach
    generalize row.definition = defined at hlaunch
    refine steady_valid fun w hw => .bind (upholds_orThrow _).lift fun found => .ite ?_ (ih rfl)
    refine .bind (hlaunch w hw current rfl) fun r => .ite (.pure _) fun f => ?_
    have same := Ends.lift (f := f) (reread_ends isDry current f.world)
    refine ((upholds_reread isDry current).lift f |>.and same).bind (fun _ _ h => h.1) ?_
    rintro found g - ⟨hg, hfound, -⟩
    have rest : Steady Run.rolledBack S (do
        let more ← executeEach launch isDry previous rest (found.getD current)
        return r :: more) := .bind (ih hfound) fun _ => .pure _
    exact (rest g).mono (fun _ _ => trans_of S hg) fun _ _ => trans_of S hg

variable {react : Reaction} {after : Record}
variable (hnested : ∀ t : Trigger, t ≠ .scheduled → ∀ previous : Option Record,
  Steady Run.rolledBack S (executeNested react t.name after previous))
variable (hreframed : ∀ (f : Frame) (c : Context), c.record.id = after.id → S f { f with context := c })
include hnested hreframed

/-- What follows once a write is announced. -/
theorem steady_announced (before : Record) : Steady Run.rolledBack S (do
    let _ ← executeNested react Trigger.onUpdate.name after (some before)
    let _ ← executeNested react Trigger.onFieldChange.name after (some before)
    let found ← (Record.get? after.id : Flow (Option Record))
    changeContext fun c => { c with record := found.getD after }) := by
  refine .bind (hnested .onUpdate nofun _) fun _ => .bind (hnested .onFieldChange nofun _) fun _ => ?_
  intro f
  have same := Ends.lift (f := f) (reread_ends false after f.world)
  have looked : Upholds R (Record.get? after.id) := .looks (.recordGet? anyCause _)
  refine (looked.lift f |>.and same).bind (fun _ _ h => h.1) ?_
  rintro found g - ⟨hg, hfound, -⟩
  exact trans_of S hg (hreframed g _ hfound)

/-- The reaction to a write goes on as the workflows do that it triggers. -/
theorem steady_onWrite [Lenient R] (before : Record) :
    Steady Run.rolledBack S (onWrite react before after) := by
  unfold onWrite
  refine .bind (incidentalIn_readable (R := R) _).steady fun changed => .bind steady_context fun c => ?_
  refine .bind (incidentalIn_lift (R := R) (incidental_announce _ _ _)).steady fun _ => ?_
  exact steady_announced hnested hreframed before

end Nested

/-- The reaction to a write upholds what the workflows do that it triggers. -/
theorem upholdsReaction_onWrite_of [Lenient R] {react : Reaction} (hnested : ∀ t : Trigger,
    t ≠ .scheduled → ∀ (record : Record) (previous : Option Record),
      UpholdsIn R (executeNested react t.name record previous)) : UpholdsReaction R (onWrite react) :=
  fun before after =>
    steady_onWrite (fun t ht => hnested t ht after) (fun f _ _ => refl_of R f.world) before

variable [Lenient R] [Indifferent R Cooldown] {react : Reaction}

/-- A workflow does nothing to speak of, or the run that it launches does all. -/
theorem execute_upheld (x : Workflow) (record : Record) {f : Frame}
    (hrun : ∀ w, Ends (Run.runActions react x.actions x.haltOnFailure)
      ⟨w, x.cappedBudget (x.considering record f.context)⟩ (fun _ g => R w g.world)
      fun _ g => R w g.world.rolledBack) :
    Ends (x.execute react record) f (fun _ g => R f.world g.world)
      fun _ g => R f.world g.world.rolledBack := by
  let c := x.considering record f.context
  have same : R f.world f.world := refl_of R f.world
  have launched {w : World} (hw : R f.world w) : Ends (do
      changeContext x.cappedBudget
      Run.runActions react x.actions x.haltOnFailure) ⟨w, c⟩
      (fun _ g => R f.world g.world) fun _ g => R f.world g.world.rolledBack :=
    .step (a := ()) (t := ⟨w, x.cappedBudget c⟩) rfl
      ((hrun w).mono (fun _ _ => trans_of R hw) fun _ _ => trans_of R hw)
  unfold execute
  refine .step (a := ()) (t := ⟨f.world, c⟩) rfl (.step (context_eq _) ?_)
  refine .ite (fun _ => .pure same) fun _ => ?_
  obtain ⟨run, hrun⟩ := runWithKey?_eq c.key f.world
  refine .step (lift_ok hrun) ?_
  split
  · exact .pure same
  refine .ite (fun _ => ?_) fun _ => launched same
  have looked : Upholds R (x.coolsDown record c.actor) :=
    Incidental.upholds (incidental_coolsDown _ _ _)
  refine (Ends.lift (f := ⟨f.world, c⟩) (looked f.world)).bind (fun _ _ h => h) ?_
  rintro cools ⟨v, _⟩ - ⟨hv, rfl⟩
  exact .ite (fun _ => .pure hv) fun _ => launched hv

variable (hruns : UpholdsRuns R react)
include hruns

theorem upholdsIn_execute (w : Workflow) (record : Record) :
    UpholdsIn R (execute react w record) := fun _ =>
  execute_upheld w record fun _ => hruns _ _ _

theorem upholdsIn_executeNested (trigger : String) (record : Record) (previous : Option Record) :
    UpholdsIn R (executeNested react trigger record previous) := by
  unfold executeNested
  refine .bind (upholds_triggered _ _).lift fun rows => .bind steady_context fun c => ?_
  refine steady_executeEach (fun _ _ w _ r _ => ?_) _ _
  exact .bind steady_context fun c => (upholdsIn_execute hruns w r).nested _

theorem upholdsReaction_onWrite : UpholdsReaction R (onWrite react) :=
  upholdsReaction_onWrite_of fun t _ => upholdsIn_executeNested hruns t.name

end Launches

/-- A relation that runs uphold if their reactions do is upheld however many levels there are. -/
theorem upholdsReaction_reactionOn [Mild R] [Indifferent R Cooldown]
    (hruns : ∀ react, UpholdsReaction R react → UpholdsRuns R react) (levels : Nat) :
    UpholdsReaction R (reactionOn (fun _ _ => pure ()) levels) := by
  induction levels with
  | zero => exact fun _ _ => .pure _
  | succ levels ih => exact upholdsReaction_onWrite (hruns _ ih)

instance [Tolerant R] : Bearing R where
  cooldowns := inferInstance
  workflows := Tolerant.workflows
  runs levels := Run.upholdsIn_runActions
    (upholdsReaction_reactionOn (fun _ => Run.upholdsIn_runActions) levels)
  goesOn levels c actions halts _ := by
    have hreact := upholdsReaction_reactionOn (R := R) (fun _ => Run.upholdsIn_runActions) levels
    refine .bind ((Run.upholdsIn_runActions hreact actions halts).runIn c) fun _ => ?_
    exact .bind (Run.upholds_linkParent _ _) fun _ => .pure _

variable [Bearing R]

theorem upholdsRuns_reaction (levels : Nat) : UpholdsRuns R (reaction levels) := by
  rw [reaction_eq_reactionOn]
  exact Bearing.runs (levels + 1)

theorem upholdsReaction_reaction (levels : Nat) : UpholdsReaction R (reaction levels) := by
  rw [reaction_eq_reactionOn]
  exact upholdsReaction_onWrite (Bearing.runs levels)

end Workflow

/-! ## Runs by themselves -/

variable [Bearing R]

theorem upholds_fresh (record : Record) (trigger : String) :
    Upholds R (Context.fresh record trigger) :=
  .looks (.bind .settings fun _ => .pure _)

theorem Run.upholds_start (c : Context) (actions : List Action) (halts : Bool) :
    Upholds R (Run.start c actions halts) :=
  .bind ((Workflow.upholdsRuns_reaction _ _ _).runIn c) fun _ =>
    .pure _

namespace Workflow

theorem upholds_executeIn (c : Context) (w : Workflow) (record : Record) :
    Upholds R (w.executeIn c record) :=
  .bind ((upholdsIn_execute (upholdsRuns_reaction _) w record).runIn c) fun _ => .pure _

theorem upholds_executeTriggered (trigger : String) (record : Record) (previous : Option Record) :
    Upholds R (executeTriggered trigger record previous) := by
  unfold executeTriggered
  refine .bind (upholds_triggered _ _) fun rows => upholds_executeEach (fun _ _ w _ r => ?_) _ _ _
  exact .bind (upholds_fresh r trigger) fun c => upholds_executeIn _ w r

end Workflow

end RecordFlow
