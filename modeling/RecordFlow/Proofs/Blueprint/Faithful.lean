import RecordFlow.Proofs.Blueprint.Move
import RecordFlow.Proofs.Record.Context

/-! # What a move writes

A move is checked for the record with its updates laid over it, and applied by actions that render the
updates and write to the store. Where nothing else follows the writes, a move that succeeds leaves
behind the record that was checked, in its new stage.
-/
namespace RecordFlow
open RecordFlow.Flow Scoped

/-- No workflow of a module is enabled. -/
def Tables.IsCalm (t : Tables) (module : Value) : Prop :=
  ∀ w ∈ t.workflows, .str w.module = module → w.isEnabled = false

/-- The record of a context is what is stored, and up to its version a given one; it is written to for
good, and nothing follows the writes. -/
structure Record.Shown (r : Record) (t : Tables) (c : Context) : Prop where
  same : c.record = { r with version := c.record.version }
  stored : t.Holds c.record
  distinct : t.RecordsDistinct
  calm : t.IsCalm r.module
  real : c.isDry = false

namespace Record.Shown
variable {r : Record} {t t' : Tables} {c c' : Context}

theorem congr (h : r.Shown t c) (hrecords : t'.records = t.records)
    (hworkflows : t'.workflows = t.workflows) (hrecord : c'.record = c.record)
    (hreal : c'.isDry = c.isDry) : r.Shown t' c' where
  same := by
    rw [hrecord]
    exact h.same
  stored := by
    unfold Tables.Holds
    rw [hrecord, hrecords]
    exact h.stored
  distinct := by
    unfold Tables.RecordsDistinct
    rw [hrecords]
    exact h.distinct
  calm := by
    unfold Tables.IsCalm
    rw [hworkflows]
    exact h.calm
  real := hreal.trans h.real

theorem id (h : r.Shown t c) : c.record.id = r.id := by rw [h.same]

theorem module (h : r.Shown t c) : c.record.module = r.module := by rw [h.same]

theorem context (h : r.Shown t c) : c.record.context = r.context := by
  rw [h.same]
  rfl

theorem text (h : r.Shown t c) : (∃ m, r.module = .str m) ∧ ∃ s, r.stage = .ofOption s := by
  obtain ⟨row, -, hrow⟩ := h.stored
  obtain ⟨hmodule, hstage⟩ := StoredRecord.text_of_toRecord hrow
  refine ⟨⟨row.module, ?_⟩, ⟨row.stage, ?_⟩⟩
  · rw [← hmodule, h.same]
  · rw [← hstage, h.same]

end Record.Shown

namespace Workflow
variable {r : Record} {f : Frame} {react : Reaction}

theorem triggered_nil {w : World} {module : Value} (hcalm : w.tables.IsCalm module)
    (htext : ∃ m, module = .str m) (trigger : String) :
    StoredWorkflow.triggered module trigger w = .ok [] w := by
  obtain ⟨m, rfl⟩ := htext
  have hnone : w.tables.workflows.filter (fun x => (some m).any fun m => x.isFor m trigger) = [] := by
    refine List.filter_eq_nil_iff.mpr fun x hx htest => ?_
    simp only [Option.any_some, StoredWorkflow.isFor, Bool.and_eq_true, decide_eq_true_eq] at htest
    obtain ⟨⟨hmodule, -⟩, henabled⟩ := htest
    rw [hcalm x hx (congrArg Value.str hmodule)] at henabled
    cases henabled
  have hall : StoredWorkflow.triggered (.str m) trigger w
      = .ok (sorted StoredWorkflow.precedes (w.tables.workflows.filter
        fun x => (some m).any fun m => x.isFor m trigger)) w := rfl
  rw [hall, hnone]
  rfl

theorem executeNested_nil (react : Reaction) (hcalm : f.world.tables.IsCalm r.module)
    (htext : ∃ m, r.module = .str m) (trigger : String) (previous : Option Record) :
    executeNested react trigger r previous f = .ok [] f := by
  unfold executeNested
  rw [bind_ok (lift_ok (triggered_nil hcalm htext trigger)), bind_ok (context_eq f)]
  rfl

/-- In a calm module a write is announced, and nothing else follows. -/
theorem onWrite_yields (before : Record) {after : Record} (hstored : f.world.tables.Holds after)
    (hcalm : f.world.tables.IsCalm after.module) (htext : ∃ m, after.module = .str m) :
    Yields (onWrite react before after) f
      fun _ g => g.world.tables = f.world.tables ∧ g.context = { f.context with record := after } := by
  unfold onWrite
  refine .bind .readable fun changed g hg => ?_
  obtain ⟨rfl, -⟩ := hg
  refine .step (context_eq g) ?_
  have told (actor : Value) (payload : Fields) :
      Yields (liftM (announce "crm.record.updated" actor payload) : Scoped Unit) g
        fun _ h => h.world.tables = g.world.tables ∧ h.context = g.context :=
    Ends.of_ok (a := ()) rfl ⟨rfl, rfl⟩
  refine .bind (told _ _) fun _ h hh => ?_
  rw [← hh.1] at hstored hcalm ⊢
  rw [← hh.2]
  have nothing (trigger : String) := executeNested_nil react hcalm htext trigger (some before)
  refine .step (nothing Trigger.onUpdate.name) (.step (nothing Trigger.onFieldChange.name) ?_)
  exact .step (lift_ok (Record.get?_of_holds hstored)) (Ends.of_ok (a := ()) rfl ⟨rfl, rfl⟩)

theorem reaction_yields (levels : Nat) (before : Record) {after : Record}
    (hstored : f.world.tables.Holds after) (hcalm : f.world.tables.IsCalm after.module)
    (htext : ∃ m, after.module = .str m) :
    Yields (reaction levels before after) f
      fun _ g => g.world.tables = f.world.tables ∧ g.context = { f.context with record := after } := by
  cases levels with
  | zero => exact onWrite_yields before hstored hcalm htext
  | succ levels => exact onWrite_yields before hstored hcalm htext

end Workflow

namespace Action
variable {r : Record} {f : Frame} {levels : Nat} {changes : Fields}

/-- A write lays its changes over the record that is shown. -/
theorem applyPatch_yields (h : r.Shown f.world.tables f.context) (hwritable : changes.AreWritable) :
    Yields (applyPatch (Workflow.reaction levels) changes) f
      fun _ g => (r.merged changes).Shown g.world.tables g.context := by
  unfold applyPatch
  refine .step (context_eq f) ?_
  have patched := Record.patch_ends h.distinct h.stored hwritable
  refine .bind (Yields.lift patched) fun after g hg => ?_
  obtain ⟨⟨hafter, hstored, hdistinct, hworkflows⟩, hcontext⟩ := hg
  obtain ⟨hid, hmodule, -, -⟩ := r.merged_rest changes
  let k : Frame := { g with context := { g.context with record := after } }
  have shown : (r.merged changes).Shown k.world.tables k.context := by
    refine ⟨?_, hstored, hdistinct, ?_,
      (congrArg Context.isDry hcontext).trans h.real⟩
    · dsimp only [k]
      rw [hafter, h.same, Record.merged_version]
    · unfold Tables.IsCalm
      rw [hworkflows, hmodule]
      exact h.calm
  refine .step (a := ()) (t := k) rfl (.step (a := k.world.wiring) (t := k) rfl ?_)
  split
  · have hmodule' : after.module = r.module := shown.module.trans hmodule
    have hcalm : k.world.tables.IsCalm after.module := hmodule'.symm ▸ hmodule ▸ shown.calm
    have reacted := Workflow.reaction_yields levels f.context.record (f := k) hstored hcalm
      (hmodule' ▸ h.text.1)
    refine reacted.mono fun _ x hx => ?_
    refine shown.congr (congrArg Tables.records hx.1) (congrArg Tables.workflows hx.1) ?_ ?_
    · rw [hx.2]
    · rw [hx.2]
  · exact .pure shown

def ShowsUpdated (r : Record) (updates : Fields) (t : Tables) (c : Context) : Prop :=
  ∃ changes, renderChanges r.context updates = .ok changes ∧ (r.merged changes).Shown t c

theorem updateFields_yields {updates : Fields} (h : r.Shown f.world.tables f.context)
    (hwritable : updates.AreWritable) :
    Yields (updateFields (Workflow.reaction levels) updates) f
      fun effect g => effect.error = none ∧ ShowsUpdated r updates g.world.tables g.context := by
  unfold updateFields
  refine .step (context_eq f) ?_
  rw [h.context, h.real]
  refine .bind .readable fun changes g hg => ?_
  obtain ⟨rfl, hchanges⟩ := hg
  refine .bind .readable fun before k hk => ?_
  obtain ⟨rfl, -⟩ := hk
  refine .bind (applyPatch_yields h (renderChanges_writable hwritable hchanges)) fun _ x hx => ?_
  exact .pure ⟨rfl, changes, hchanges, hx⟩

theorem moveStage_yields (stage : String) (h : r.Shown f.world.tables f.context) :
    Yields (moveStage (Workflow.reaction levels) stage) f fun effect g => effect.error = none
      ∧ (r.put "stage" (.str stage)).Shown g.world.tables g.context := by
  unfold moveStage
  refine .step (context_eq f) ?_
  rw [h.real]
  have hstage : f.context.record.stage = r.stage := by rw [h.same]
  rw [hstage]
  split
  · next hsame =>
    refine .pure ⟨rfl, ?_⟩
    obtain ⟨s, hs⟩ := h.text.2
    rw [hs] at hsame
    have hput : r.put "stage" (.str stage) = r := by
      rw [Value.same_ofOption hsame, ← hs]
      rfl
    rw [hput]
    exact h
  · have writable : Fields.AreWritable [("stage", .str stage)] := by
      refine ⟨List.nodup_singleton _, fun f v hv => ?_⟩
      cases f with
      | stage => exact ⟨some stage, (Option.some.inj hv).symm⟩
      | ownerId | title | isOpen => cases hv
    refine .bind (applyPatch_yields h writable) fun _ g hg => ?_
    exact .pure ⟨rfl, hg⟩

end Action

namespace Run
variable {r : Record} {f : Frame} {levels : Nat} {id : Uuid} {taken : Int} {p : Progress}

theorem fetchRun_yields (id : Uuid) (w : World) : Yields (fetch Run id) w fun _ v => v = w :=
  Ends.mono (fetch_ends id w) (fun _ _ h => h.1) fun _ _ _ => trivial

/-- Saving what a run did so far touches only runs. -/
theorem checkpoint_yields (id : Uuid) (executed : List ActionResult) (consumed : Int) (w : World) :
    Yields (checkpoint id executed consumed) w fun _ v =>
      v.tables.records = w.tables.records ∧ v.tables.workflows = w.tables.workflows := by
  unfold checkpoint
  refine (fetchRun_yields id w).bind fun _ v hv => ?_
  subst hv
  exact Ends.of_ok (a := ()) rfl ⟨rfl, rfl⟩

/-- An action that is decided is followed by the rest of a run if it succeeds; otherwise nothing
more is carried out. -/
theorem performFrom_decided {P : Tables → Context → Prop} {react : Reaction} {a : Action}
    {rest : List Action} {ok : Progress → Frame → Prop}
    (hP : ∀ {t t' c}, P t c → t'.records = t.records → t'.workflows = t.workflows → P t' c)
    (hperform : Yields (a.perform react) (before rest f) (Action.Decided P))
    (hstop : ∀ q g, q.executed = p.executed
      ∨ (∃ r, r.status = .failed ∧ q.executed = p.executed ++ [r]) → ok q g)
    (hend : ∀ r q g, r.status = .success → q.executed = p.executed ++ [r] →
      P g.world.tables g.context → ok q g)
    (hnext : ∀ r g, r.status = .success → P g.world.tables g.context →
      Yields (performFrom react id taken true rest (p.add r)) g ok) :
    Yields (performFrom react id taken true (a :: rest) p) f ok := by
  unfold performFrom
  refine .step (a := ()) (t := before rest f) rfl ?_
  have limited : Yields (orLimit (a.perform react)) (before rest f) fun res g =>
      ∀ r, res = .ok r → Action.Decided P r g := by
    unfold Yields orLimit
    cases hx : a.perform react (before rest f) with
    | ok r g =>
      have hdecided := Ends.ok_of hperform hx
      refine Ends.of_ok (a := .ok r) (t := g) (by rw [hx]) fun s hs => ?_
      rw [← Except.ok.inj hs]
      exact hdecided
    | error e g =>
      cases e with
      | limit l => exact Ends.of_ok (a := .error l) (t := g) (by rw [hx]) fun s hs => by cases hs
      | _ => exact Ends.of_error (t := g) (by rw [hx]) trivial
  refine limited.bind fun res g hres => ?_
  cases res with
  | error l => exact Ends.of_ok rfl (hstop _ _ (.inl rfl))
  | ok r =>
    have hadded : (p.add r).executed = p.executed ++ [r] := p.executed_add r
    refine .step (context_eq g) (.bind (.lift (checkpoint_yields _ _ _ _)) fun _ k hk => ?_)
    obtain ⟨⟨hrecords, hworkflows⟩, hcontext⟩ := hk
    have kept (hg : P g.world.tables g.context) : P k.world.tables k.context :=
      hcontext ▸ hP hg hrecords hworkflows
    rcases hres r rfl with ⟨hstatus, hg⟩ | ⟨hstatus, -⟩
    · have hgoes : ¬ (r.status = .failed ∧ true = true) := by
        rintro ⟨hfailed, -⟩
        rw [hstatus] at hfailed
        cases hfailed
      rw [if_neg hgoes]
      split
      · exact .pure (hend r _ k hstatus hadded (kept hg))
      · exact hnext r k hstatus (kept hg)
    · rw [if_pos ⟨hstatus, rfl⟩]
      exact .pure (hstop _ k (.inr ⟨r, hstatus, hadded⟩))

theorem not_succeeded {executed : List ActionResult}
    (h : executed = p.executed ∨ ∃ r, r.status = .failed ∧ executed = p.executed ++ [r]) :
    succeeded p.executed.length executed = false := by
  unfold succeeded
  rcases h with rfl | ⟨r, hr, rfl⟩
  · rw [List.getElem?_eq_none (Nat.le_refl _)]
    rfl
  · rw [List.getElem?_append_right (Nat.le_refl _), Nat.sub_self]
    simp [hr]

theorem performFrom_move_yields (toStage : String) (h : r.Shown f.world.tables f.context) :
    Yields (performFrom (Workflow.reaction levels) id taken true
        [⟨defaultId, none, .moveStage toStage⟩] p) f
      fun q g => succeeded p.executed.length q.executed = true →
        (r.put "stage" (.str toStage)).Shown g.world.tables g.context := by
  let move : Action := ⟨defaultId, none, .moveStage toStage⟩
  have performed : Yields (move.perform (Workflow.reaction levels)) (before [] f)
      (Action.Decided fun t c => (r.put "stage" (.str toStage)).Shown t c) :=
    Action.perform_decided rfl fun b _ =>
      Action.moveStage_yields toStage (h.congr rfl rfl rfl rfl)
  refine performFrom_decided (fun hP hrecords hworkflows => hP.congr hrecords hworkflows rfl rfl)
    performed ?_ ?_ ?_
  · intro q g hq hmoved
    rw [not_succeeded hq] at hmoved
    cases hmoved
  · exact fun _ _ _ _ _ hg _ => hg
  · exact fun _ _ _ hg => .pure fun _ => hg

/-- A move without actions of its own writes the rendered updates and the new stage. -/
theorem performFrom_moveActions_yields (levels : Nat) (id : Uuid) (taken : Int) {t : Transition}
    (hactions : t.actions = []) (toStage : String) {updates : Fields} (hwritable : updates.AreWritable)
    (h : r.Shown f.world.tables f.context) :
    Yields (performFrom (Workflow.reaction levels) id taken true
        (Blueprint.moveActions t toStage updates).1 .start) f
      fun q g => succeeded (Blueprint.moveActions t toStage updates).2 q.executed = true →
        ∃ changes, Action.renderChanges r.context updates = .ok changes
          ∧ ((r.merged changes).put "stage" (.str toStage)).Shown g.world.tables g.context := by
  unfold Blueprint.moveActions
  cases hempty : updates.isEmpty with
  | true =>
    obtain rfl := List.isEmpty_iff.mp hempty
    rw [hactions]
    refine (performFrom_move_yields toStage h).mono fun q g hq hmoved => ?_
    exact ⟨[], rfl, hq hmoved⟩
  | false =>
    dsimp only
    rw [hactions]
    let move : Action := ⟨defaultId, none, .moveStage toStage⟩
    let update : Action := ⟨defaultId, none, .updateFields updates⟩
    have performed : Yields (update.perform (Workflow.reaction levels)) (before [move] f)
        (Action.Decided (Action.ShowsUpdated r updates)) :=
      Action.perform_decided rfl fun b _ =>
        Action.updateFields_yields (h.congr rfl rfl rfl rfl) hwritable
    -- The move has the second place, so nothing has moved before it is carried out.
    have unmoved {executed : List ActionResult} {P : Prop} (hlength : executed.length ≤ 1)
        (hmoved : succeeded 1 executed = true) : P := by
      rw [succeeded, List.getElem?_eq_none hlength] at hmoved
      cases hmoved
    refine performFrom_decided ?_ performed ?_ ?_ ?_
    · rintro t t' c ⟨changes, hchanges, hshown⟩ hrecords hworkflows
      exact ⟨changes, hchanges, hshown.congr hrecords hworkflows rfl rfl⟩
    · intro q g hq hmoved
      have hlength : q.executed.length ≤ 1 := by
        rcases hq with hq | ⟨s, -, hq⟩
        · rw [hq]
          exact Nat.zero_le 1
        · rw [hq]
          exact Nat.le_refl 1
      exact unmoved hlength hmoved
    · intro s q g _ hq _ hmoved
      have hlength : q.executed.length ≤ 1 := by
        rw [hq]
        exact Nat.le_refl 1
      exact unmoved hlength hmoved
    · rintro s g - ⟨changes, hchanges, hshown⟩
      refine (performFrom_move_yields toStage hshown).mono fun q k hq hmoved => ?_
      have hone : (Progress.start.add s).executed.length = 1 := by
        rw [Progress.start.executed_add]
        rfl
      exact ⟨changes, hchanges, hq (by rw [hone]; exact hmoved)⟩

theorem finish_yields (id : Uuid) (taken : Int) (p : Progress) (c : Context) (w : World) :
    Yields (finish id taken p c) w fun _ v =>
      v.tables.records = w.tables.records ∧ v.tables.workflows = w.tables.workflows := by
  unfold finish
  refine (fetchRun_yields id w).bind fun _ v hv => ?_
  subst hv
  cases c.isDry with
  | true => exact Ends.of_ok (a := ()) rfl ⟨rfl, rfl⟩
  | false => exact Ends.of_ok (a := ()) rfl ⟨rfl, rfl⟩

/-- What is shown after the actions of a run is shown after the run. -/
theorem goThrough_yields {actions : List Action} {react : Reaction}
    {P : List ActionResult → Tables → Context → Prop}
    (hP : ∀ {executed t t' c}, P executed t c → t'.records = t.records →
      t'.workflows = t.workflows → P executed t' c)
    (h : Yields (performFrom react id f.context.budget.consumed true actions .start) f
      fun p g => P p.executed g.world.tables g.context) :
    Yields (goThrough react id actions true) f
      fun res g => P res.executed g.world.tables g.context := by
  unfold goThrough
  refine .step (context_eq f) (h.bind fun p g hg => .step (context_eq g) ?_)
  refine .bind (.lift (finish_yields _ _ _ _ _)) fun _ k hk => ?_
  obtain ⟨⟨hrecords, hworkflows⟩, hcontext⟩ := hk
  have hg' : P p.executed k.world.tables k.context := hcontext ▸ hP hg hrecords hworkflows
  cases p.limit with
  | none => exact .pure hg'
  | some l =>
    -- Telling the limit writes to no table.
    have answer (x : Frame) (hx : P p.executed x.world.tables x.context) : Yields (do
        if g.context.parent.isSome then throw (.limit l)
        return result id p g.context : Scoped RunResult) x
        fun res y => P res.executed y.world.tables y.context := by
      split
      · exact .throw
      · exact .pure hx
    have told : Yields (liftM (tellLimit l g.context) : Scoped Unit) k
        fun _ x => P p.executed x.world.tables x.context := Ends.of_ok (a := ()) rfl hg'
    dsimp only
    split
    · exact told.bind fun _ x hx => answer x hx
    · exact answer k hg'

end Run

namespace Blueprint
variable {r : Record} {t : Transition} {updates : Fields} {toStage : String} {w : World}

def Wrote (r : Record) (toStage : String) (updates : Fields) (t : Tables) : Prop :=
  ∃ changes c, Action.renderChanges r.context updates = .ok changes
    ∧ ((r.merged changes).put "stage" (.str toStage)).Shown t c

theorem Wrote.congr {t t' : Tables} (h : Wrote r toStage updates t)
    (hrecords : t'.records = t.records) (hworkflows : t'.workflows = t.workflows) :
    Wrote r toStage updates t' := by
  obtain ⟨changes, c, hchanges, hshown⟩ := h
  exact ⟨changes, c, hchanges, hshown.congr hrecords hworkflows rfl rfl⟩

theorem runActions_moveActions_yields (levels : Nat) (toStage : String) (hactions : t.actions = [])
    (hwritable : updates.AreWritable) {f : Frame} (h : r.Shown f.world.tables f.context) :
    Yields (Run.runActions (Workflow.reaction levels) (moveActions t toStage updates).1 true) f
      fun res g => hasMoved res (moveActions t toStage updates).2 = true →
        Wrote r toStage updates g.world.tables := by
  unfold Run.runActions
  refine .step (context_eq f) ?_
  have opened : Yields (Run.openRun f.context) f.world fun _ v =>
      v.tables.records = f.world.tables.records ∧ v.tables.workflows = f.world.tables.workflows := by
    refine Ends.mono (Run.openRun_ends f.context f.world) (fun row v hv => ?_) fun _ _ _ => trivial
    rw [hv.world]
    exact ⟨rfl, rfl⟩
  refine .bind (.lift opened) fun row g hg => ?_
  obtain ⟨⟨hrecords, hworkflows⟩, hcontext⟩ := hg
  let k : Frame := { g with context := { g.context with run := some row.id } }
  have hrecord : g.context.record = f.context.record := congrArg Context.record hcontext
  have hdry : g.context.isDry = f.context.isDry := congrArg Context.isDry hcontext
  have shown : r.Shown (k.mark (some row.id.text)).world.tables (k.mark (some row.id.text)).context :=
    h.congr hrecords hworkflows hrecord hdry
  refine .step (a := ()) (t := k) rfl (Run.marked_ends (.refl ?_)).ends
  have carried := Run.performFrom_moveActions_yields levels row.id
    (k.mark (some row.id.text)).context.budget.consumed hactions toStage hwritable shown
  have went := Run.goThrough_yields
    (P := fun executed t' _ => Run.succeeded (moveActions t toStage updates).2 executed = true →
      Wrote r toStage updates t')
    (fun hP hrecords hworkflows hmoved => (hP hmoved).congr hrecords hworkflows)
    (carried.mono fun p x hx hmoved => by
      obtain ⟨changes, hchanges, hshown⟩ := hx hmoved
      exact ⟨changes, x.context, hchanges, hshown⟩)
  exact Ends.mono went (fun res x hx _ hmoved => hx hmoved) fun _ _ h _ => h

theorem start_moveActions_yields (toStage : String) (hactions : t.actions = [])
    (hwritable : updates.AreWritable)
    {c : Context} (h : r.Shown w.tables c) :
    Yields (Run.start c (moveActions t toStage updates).1 true) w fun res v =>
      hasMoved res (moveActions t toStage updates).2 = true →
        Wrote r toStage updates v.tables := by
  have run := runActions_moveActions_yields c.budget.remaining toStage hactions hwritable
    (f := { world := w, context := c }) h
  have ran : Yields (runIn c (Run.runActions c.reaction (moveActions t toStage updates).1 true)) w
      fun out v => hasMoved out.1 (moveActions t toStage updates).2 = true →
        Wrote r toStage updates v.tables := runIn_ends run
  exact ran.bind fun out v hv => .pure hv

/-- A transition without actions of its own writes the move if it succeeds. -/
theorem applyMove_yields (b : Blueprint) (hactions : t.actions = [])
    (hwritable : updates.AreWritable) (actor : Option String) (v : Validation)
    (approval : Option Uuid) (hshown : ∀ c : Context, c.record = r → c.isDry = false →
      r.Shown w.tables c) :
    Yields (b.applyMove t r toStage updates actor v approval) w fun m x =>
      m.success = true → Wrote r toStage updates x.tables := by
  let c : Context := { Context.root r "stage_transition" w.settings.maxActions with
    actor := .ofOption actor, source := "blueprint" }
  have shown : r.Shown w.tables c := hshown c rfl rfl
  have start := start_moveActions_yields toStage hactions hwritable shown
  unfold applyMove
  generalize moveActions t toStage updates = listed at start ⊢
  obtain ⟨actions, position⟩ := listed
  refine .step (a := Context.root r "stage_transition" w.settings.maxActions) (t := w) rfl ?_
  refine start.bind fun run x hx => ?_
  dsimp only
  cases hmoved : hasMoved run position with
  | false => exact .pure fun h => absurd h Bool.false_ne_true
  | true =>
    obtain ⟨s, hs⟩ := shown.text.2
    have recorded := recordMove_ends ⟨r, toStage, updates, actor, approval⟩ b.id run.run
      (hs ▸ Cell.text_ofOption s) x
    refine Ends.bind recorded (fun _ _ _ => trivial) fun _ y _ hy => ?_
    obtain ⟨id, change, -, -, htables, -⟩ := hy
    have wrote : Wrote r toStage updates y.tables :=
      (hx hmoved).congr (by rw [htables]) (by rw [htables])
    exact .pure fun _ => wrote

end Blueprint

/-! ## Required fields -/

/-- If no required field is unmet, each one that applies is filled. -/
theorem filled_of_unmetFields {context : Value} {required : List FieldRequirement}
    (h : unmetFields context required = .ok []) {q : FieldRequirement} (hq : q ∈ required)
    (hholds : Condition.holds? context none q.condition = true) :
    ∃ v, context.fieldValue q.field = .ok v ∧ v.isBlank = false := by
  induction required with
  | nil => cases hq
  | cons p rest ih =>
    unfold unmetFields at h
    cases hp : p.isUnmet context with
    | error cause => rw [hp] at h; cases h
    | ok unmet =>
      cases hrest : unmetFields context rest with
      | error cause => rw [hp, hrest] at h; cases h
      | ok more =>
        rw [hp, hrest] at h
        have hnone : (if unmet = true then p.field :: more else more) = [] := Except.ok.inj h
        cases unmet with
        | true => cases hnone
        | false =>
          obtain rfl : more = [] := hnone
          rcases List.mem_cons.mp hq with rfl | hq
          · unfold FieldRequirement.isUnmet at hp
            rw [if_pos hholds] at hp
            cases hv : context.fieldValue q.field with
            | error cause => rw [hv] at hp; cases hp
            | ok v =>
              rw [hv] at hp
              exact ⟨v, rfl, Except.ok.inj hp⟩
          · exact ih hrest hq

/-- A transition that is allowed has all its required fields filled. -/
theorem Transition.unmetFields_of_check {t : Transition} {candidate : Record} {v : Validation}
    (h : t.check candidate = .ok v) (hallowed : v.allowed = true) :
    unmetFields candidate.context t.requiredFields = .ok [] := by
  unfold check at h
  dsimp only at h
  split at h
  · obtain rfl := Except.ok.inj h
    cases hallowed
  · cases hm : unmetFields candidate.context t.requiredFields with
    | error cause => rw [hm] at h; cases h
    | ok missing =>
      rw [hm] at h
      obtain rfl := Except.ok.inj h
      cases missing with
      | nil => rfl
      | cons field more => cases hallowed

namespace Record
variable {r : Record} {updates : Fields}

theorem merged_stage_text (hwritable : updates.AreWritable) (htext : ∃ s, r.stage = .ofOption s) :
    ∃ s, (r.merged updates).stage = .ofOption s := by
  have hstage : (r.merged updates).stage
      = (Fields.get? updates SystemField.stage.name).getD r.stage :=
    merged_system hwritable.distinct .stage
  cases hget : Fields.get? updates SystemField.stage.name with
  | none =>
    rw [hget] at hstage
    exact hstage ▸ htext
  | some v =>
    rw [hget] at hstage
    exact hstage ▸ hwritable.taken .stage v hget

end Record

namespace Blueprint
variable {ref : BlueprintRef} {record : Uuid} {r : Record} {b : Blueprint} {t : Transition}
variable {updates : Fields} {toStage : String} {w : World}

theorem unmetFields_of_check (hedge : b.findTransition r.stage toStage = some t)
    (hallowed : (b.check r toStage updates).allowed = true) :
    unmetFields (r.merged updates).context t.requiredFields = .ok [] := by
  unfold check at hallowed
  split at hallowed
  · cases hallowed
  · rw [hedge] at hallowed
    dsimp only at hallowed
    cases hv : t.check (r.merged updates) with
    | error cause => rw [hv] at hallowed; cases hallowed
    | ok v =>
      rw [hv] at hallowed
      exact Transition.unmetFields_of_check hv hallowed

/-- What a move leaves behind of its record. It is stored as it was checked, in its new stage and
with its updates rendered; where rendering has nothing to do, all that is required is filled. -/
structure StoresChecked (r : Record) (t : Transition) (toStage : String) (updates : Fields)
    (v : World) : Prop where
  rendered : ∃ changes after, Action.renderChanges r.context updates = .ok changes
    ∧ Record.get? r.id v = .ok (some after) v
    ∧ after = { (r.merged changes).put "stage" (.str toStage) with version := after.version }
  plain : (∀ c ∈ updates, ∀ s, c.2 = .str s → Template.IsPlain s) →
    ∃ after, Record.get? r.id v = .ok (some after) v
      ∧ after = { (r.merged updates).put "stage" (.str toStage) with version := after.version }
      ∧ ∀ q ∈ t.requiredFields,
        Condition.holds? (r.merged updates).context none q.condition = true →
          ∃ value, after.context.fieldValue q.field = .ok value
            ∧ (value.isBlank = false ∨ value = .str toStage)

theorem Wrote.storesChecked {v : World} (h : Wrote r toStage updates v.tables)
    (hwritable : updates.AreWritable) (htext : ∃ s, r.stage = .ofOption s)
    (hfilled : unmetFields (r.merged updates).context t.requiredFields = .ok []) :
    StoresChecked r t toStage updates v := by
  obtain ⟨changes, c, hchanges, hshown⟩ := h
  have hid : c.record.id = r.id := hshown.id.trans (r.merged_rest changes).1
  have hget : Record.get? r.id v = .ok (some c.record) v := hid ▸ Record.get?_of_holds hshown.stored
  refine ⟨⟨changes, c.record, hchanges, hget, hshown.same⟩, fun hplain => ?_⟩
  obtain rfl : updates = changes := Except.ok.inj ((Action.renderChanges_plain hplain).symm.trans
    hchanges)
  refine ⟨c.record, hget, hshown.same, fun q hq hholds => ?_⟩
  obtain ⟨value, hvalue, hnonblank⟩ := filled_of_unmetFields hfilled hq hholds
  rw [hshown.context]
  rcases Record.filled_put_stage (.str toStage)
    (Record.merged_stage_text hwritable htext) hvalue hnonblank with hsame | hstage
  · exact ⟨value, hsame, .inl hnonblank⟩
  · exact ⟨.str toStage, hstage, .inr rfl⟩

/-- A move by a transition that asks for no approval and has no actions of its own stores what was
checked, if it succeeds and no workflow is triggered. -/
theorem move_storesChecked (actor : Option String) (hget : Record.get? record w = .ok (some r) w)
    (hresolve : resolve ref r.module w = .ok (some b) w)
    (hedge : b.findTransition r.stage toStage = some t) (hfree : t.requiresApproval = false)
    (hactions : t.actions = []) (hcalm : w.tables.IsCalm r.module)
    (hdistinct : w.tables.RecordsDistinct) (hwritable : updates.AreWritable) :
    Ends (move ref record toStage updates actor) w
      (fun m v => m.success = true → StoresChecked r t toStage updates v) fun _ _ => True := by
  obtain ⟨hholds, -, -⟩ := Record.holds_of_get? hget
  have shown (c : Context) (hrecord : c.record = r) (hreal : c.isDry = false) :
      r.Shown w.tables c := by
    refine ⟨?_, hrecord ▸ hholds, hdistinct, hcalm, hreal⟩
    rw [hrecord]
  unfold move
  refine .step hget (.step hresolve ?_)
  dsimp only
  cases hallowed : (b.check r toStage updates).allowed with
  | false => exact .pure fun h => absurd h Bool.false_ne_true
  | true =>
    rw [hedge]
    dsimp only
    rw [hfree]
    have text := (shown (Context.root r "" 0) rfl rfl).text.2
    refine Ends.mono (applyMove_yields b hactions hwritable actor _ none shown)
      (fun m v hwrote hsuccess => ?_) fun _ _ h => h
    exact (hwrote hsuccess).storesChecked hwritable text (unmetFields_of_check hedge hallowed)

@[irreducible]
def notedDeals : World :=
  let deal : StoredRecord := {
    id := TableName.record.rowId 1
    module := "deals"
    ownerId := none
    stage := some "new"
    title := none
    isOpen := true
    data := .obj []
    createdBy := none
    version := 1
    createdAt := ⟨0⟩ }
  let winning : StoredBlueprint := {
    id := TableName.blueprint.rowId 1
    name := "winning"
    module := "deals"
    isEnabled := true
    stages := .list [
      .obj [("key", .str "new"), ("transitions", .list [
        .obj [("to_stage", .str "won"), ("required_fields", .list [.str "note"])]])],
      .obj [("key", .str "won")]]
    createdAt := ⟨0⟩ }
  let tables := { Tables.empty with records := [deal], blueprints := [winning] }
  { World.initial ⟨⟨0⟩, 0⟩ .standard .complete [] with tables := tables, saved := tables }

def noted (note : String) : Fields := [("note", .str note)]

theorem noted_writable (note : String) : (noted note).AreWritable where
  distinct := List.nodup_singleton _
  taken f v hv := by cases f <;> cases hv

theorem notedDeals_calm (module : Value) : notedDeals.tables.IsCalm module := by
  unfold notedDeals Tables.IsCalm
  exact nofun

theorem notedDeals_distinct : notedDeals.tables.RecordsDistinct := by
  unfold notedDeals Tables.RecordsDistinct
  exact List.nodup_singleton _

def canBeWon (r : Record) (w : World) : Bool :=
  passes (resolve .ofModule r.module) w fun b _ => b.any fun b =>
    (b.findTransition r.stage "won").any fun t => !t.requiresApproval && t.actions.isEmpty

set_option maxRecDepth 10000 in
theorem notedDeals_winnable : passes (Record.get? (TableName.record.rowId 1)) notedDeals
    (fun found w => found.any fun r => canBeWon r w) = true := by
  decide +kernel

/-- The deal can be won by a transition that asks for no approval and has no actions of its own. -/
theorem notedDeals_edge : ∃ r b t,
    Record.get? (TableName.record.rowId 1) notedDeals = .ok (some r) notedDeals
      ∧ resolve .ofModule r.module notedDeals = .ok (some b) notedDeals
      ∧ b.findTransition r.stage "won" = some t ∧ t.requiresApproval = false ∧ t.actions = [] := by
  have found := Ends.of_passes notedDeals_winnable
  cases hget : Record.get? (TableName.record.rowId 1) notedDeals with
  | error e v => exact (found.bad_of hget).elim
  | ok record v =>
    obtain ⟨r, hr, hwinnable⟩ := (Option.any_eq_true _ _).mp (found.ok_of hget)
    obtain rfl : record = some r := hr
    obtain ⟨-, -, rfl⟩ := Record.holds_of_get? hget
    have resolved := Ends.of_passes hwinnable
    cases hresolve : resolve .ofModule r.module notedDeals with
    | error e x => exact (resolved.bad_of hresolve).elim
    | ok blueprint x =>
      obtain ⟨b, hb, hedge⟩ := (Option.any_eq_true _ _).mp (resolved.ok_of hresolve)
      obtain ⟨t, ht, htest⟩ := (Option.any_eq_true _ _).mp hedge
      obtain rfl : blueprint = some b := hb
      obtain rfl : x = notedDeals := ((resolve_ends _ _ _).ok_of hresolve).1
      rw [Bool.and_eq_true, Bool.not_eq_true', List.isEmpty_iff] at htest
      exact ⟨r, b, t, rfl, hresolve, ht, htest.1, htest.2⟩

def winWith (note : String) : Flow MoveResult :=
  move .ofModule (TableName.record.rowId 1) "won" (noted note) none

set_option maxRecDepth 10000 in
theorem winWith_sold : passes (winWith "sold") notedDeals (fun m _ => m.success) = true := by
  decide +kernel

/-- The deal is won, and stored as it was checked. -/
theorem move_storesChecked_sold : ∃ r b t,
    Record.get? (TableName.record.rowId 1) notedDeals = .ok (some r) notedDeals
      ∧ resolve .ofModule r.module notedDeals = .ok (some b) notedDeals
      ∧ b.findTransition r.stage "won" = some t ∧ t.requiresApproval = false ∧ t.actions = []
      ∧ notedDeals.tables.IsCalm r.module ∧ notedDeals.tables.RecordsDistinct
      ∧ (noted "sold").AreWritable
      ∧ Ends (winWith "sold") notedDeals
        (fun m v => m.success = true ∧ StoresChecked r t "won" (noted "sold") v)
        fun _ _ => False := by
  obtain ⟨r, b, t, hget, hresolve, hedge, hfree, hactions⟩ := notedDeals_edge
  have stores := move_storesChecked none hget hresolve hedge hfree hactions
    (notedDeals_calm r.module) notedDeals_distinct (noted_writable "sold")
  refine ⟨r, b, t, hget, hresolve, hedge, hfree, hactions, notedDeals_calm _, notedDeals_distinct,
    noted_writable _, ?_⟩
  exact ((Ends.of_passes winWith_sold).and stores).mono (fun m v h => ⟨h.1, h.2 h.1⟩)
    fun _ _ h => h.1

def hollowNote : String := "\x7b\x7bmissing\x7d\x7d"

set_option maxRecDepth 10000 in
theorem winWith_hollowNote : passes (winWith hollowNote) notedDeals (fun m v => m.success
    && passes (Record.get? (TableName.record.rowId 1)) v fun found _ =>
      found.all fun after => (after.fields.getD "note").text? = some "") = true := by
  decide +kernel

/-- Updates are not stored as they are given: the note that was required is empty. -/
theorem move_not_as_given : ¬ ∀ (ref : BlueprintRef) (record : Uuid) (toStage : String)
    (updates : Fields) (actor : Option String) (w : World) (r : Record) (b : Blueprint)
    (t : Transition), Record.get? record w = .ok (some r) w →
      resolve ref r.module w = .ok (some b) w → b.findTransition r.stage toStage = some t →
      t.requiresApproval = false → t.actions = [] → w.tables.IsCalm r.module →
      w.tables.RecordsDistinct → updates.AreWritable →
      Ends (move ref record toStage updates actor) w
        (fun m v => m.success = true → ∃ after, Record.get? record v = .ok (some after) v
          ∧ after = { (r.merged updates).put "stage" (.str toStage) with version := after.version })
        fun _ _ => True := by
  intro h
  obtain ⟨r, b, t, hget, hresolve, hedge, hfree, hactions⟩ := notedDeals_edge
  have given := h .ofModule (TableName.record.rowId 1) "won" (noted hollowNote) none notedDeals r b t
    hget hresolve hedge hfree hactions (notedDeals_calm _) notedDeals_distinct (noted_writable _)
  have both := (Ends.of_passes winWith_hollowNote).and given
  have impossible : Ends (winWith hollowNote) notedDeals (fun _ _ => False) fun _ _ => False := by
    refine both.mono (fun m v hm => ?_) fun _ _ h => h.1
    obtain ⟨htest, hgiven⟩ := hm
    rw [Bool.and_eq_true] at htest
    obtain ⟨after, hafter, hsame⟩ := hgiven htest.1
    have hempty := (Ends.of_passes htest.2).ok_of hafter
    have hfields : after.fields = Fields.put "note" (.str hollowNote) r.fields := by
      rw [hsame]
      rfl
    have hnote : after.fields.getD "note" = .str hollowNote := by
      rw [Fields.getD, hfields, Fields.get?_put_self]
      rfl
    rw [Option.all_some, hnote] at hempty
    exact absurd hempty (by decide)
  cases hx : winWith hollowNote notedDeals with
  | ok _ _ => exact impossible.ok_of hx
  | error _ _ => exact impossible.bad_of hx

end Blueprint

end RecordFlow
