import RecordFlow.Proofs.Run.Closing
import RecordFlow.Proofs.Run.Upheld
import RecordFlow.Proofs.Session.Keyed

/-! # Scheduled workflows

The handler of a job for a scheduled workflow goes through the records of the module, and runs the workflow
for those that match. The run for a record has a key of its own for the job and the record. So a second
pass for the same job is one over the records that were not handled by the first, whatever became of the
runs for the others.
-/
namespace RecordFlow
open RecordFlow.Flow Scoped

/-! ## Which runs are opened

A run is opened as its context says, and the runs that are nested in it are opened for the updates that it
makes. So what is known of the context of a run and true of all runs for updates is true of all that is
opened on the way, whether the run succeeds or fails.
-/

namespace Run
variable {P : RunHead → Prop}

def OpensOnly (P : RunHead → Prop) (w v : World) : Prop :=
  w.saved.runs = w.tables.runs → v.saved.runs = v.tables.runs
    ∧ ∃ new, v.tables.runs.map head = w.tables.runs.map head ++ new ∧ ∀ h ∈ new, P h

instance : AboutRuns (OpensOnly P) where
  refl _ hw := ⟨hw, [], (List.append_nil _).symm, List.forall_mem_nil _⟩
  trans _ _ _ h h' hw := by
    obtain ⟨hv, new, hnew, hP⟩ := h hw
    obtain ⟨hu, more, hmore, hP'⟩ := h' hv
    refine ⟨hu, new ++ more, by rw [hmore, hnew, List.append_assoc], fun r hr => ?_⟩
    exact (List.mem_append.mp hr).elim (hP r) (hP' r)
  beside _ _ _ _ hruns hw := by
    obtain ⟨htables, hsaved⟩ := hruns hw
    exact ⟨hsaved.trans htables.symm, [], by rw [htables, List.append_nil], List.forall_mem_nil _⟩

instance : Recording (OpensOnly P) where
  toMild := inferInstance
  outside _ _ h hw :=
    ⟨by rw [h.saved, h.tables, hw], [], by rw [h.tables, List.append_nil], List.forall_mem_nil _⟩
  savesRun w id change hchange _ := by
    refine ⟨rfl, [], ?_, List.forall_mem_nil _⟩
    rw [List.append_nil]
    exact map_head_changeRow hchange w.tables.runs

def OpenedBy (c : Context) (h : RunHead) : Prop :=
  h.workflow = c.workflow ∧ h.trigger = c.trigger ∧ h.record = some c.record.id ∧ h.isDry = c.isDry
    ∧ h.key = c.key

theorem Opens.opensOnly {c : Context} {w v : World} {row : Run} (h : Opens c w row v)
    (hP : ∀ r, OpenedBy c r → P r) : OpensOnly P w v := fun _ => by
  have hopened : OpenedBy c row.head := by
    rw [h.head]
    exact ⟨rfl, rfl, rfl, rfl, rfl⟩
  rw [h.world]
  exact ⟨rfl, [row.head], List.map_append, List.forall_mem_singleton.mpr (hP _ hopened)⟩

/-- What may be opened if a context opens it is opened by the run that it opens. -/
theorem runActions_opensOnly {react : Reaction} (hreact : UpholdsReaction (OpensOnly P) react)
    (actions : List Action) (halts : Bool) {f : Frame} (hP : ∀ r, OpenedBy f.context r → P r) :
    Ends (runActions react actions halts) f (fun _ g => OpensOnly P f.world g.world)
      fun _ g => OpensOnly P f.world g.world.rolledBack := by
  refine (runActions_upheld hreact actions halts f).mono ?_ ?_
  · rintro _ g ⟨row, v, hrow, hg⟩
    exact trans_of (OpensOnly P) (hrow.opensOnly hP) hg
  · rintro _ g (hg | ⟨row, v, hrow, hg⟩)
    · rw [hg]
      exact trans_of (OpensOnly P) (Lenient.numbered f.world .run) (AboutRuns.undone _)
    · exact trans_of (OpensOnly P) (hrow.opensOnly hP) hg

end Run

namespace Workflow
open Run
variable {P : RunHead → Prop}

section Reactions
variable {react : Reaction} (hreact : UpholdsReaction (OpensOnly P) react)
include hreact

theorem execute_opensOnly (x : Workflow) (record : Record) {f : Frame}
    (hP : ∀ r, OpenedBy (x.considering record f.context) r → P r) :
    Ends (x.execute react record) f (fun _ g => OpensOnly P f.world g.world)
      fun _ g => OpensOnly P f.world g.world.rolledBack := by
  have capped : ∀ r, OpenedBy (x.cappedBudget (x.considering record f.context)) r → P r := by
    obtain ⟨most, -, hcapped⟩ := x.cappedBudget_eq (x.considering record f.context)
    rw [hcapped]
    exact hP
  exact execute_upheld x record fun _ => runActions_opensOnly hreact _ _ capped

variable {trigger : String} (hnested : ∀ r : RunHead, r.trigger = trigger → P r)
include hnested

theorem executeNested_opensOnly (record : Record) (previous : Option Record) :
    UpholdsIn (OpensOnly P) (executeNested react trigger record previous) := by
  unfold executeNested
  refine .bind (upholds_triggered _ _).lift fun rows => .bind steady_context fun c => ?_
  refine steady_executeEach (fun _ _ x _ r _ f => ?_) _ _
  refine .step (context_eq f) (nested_ends (.refl ?_)).ends
  exact execute_opensOnly hreact x r (f := ⟨f.world, f.context.child r trigger previous⟩)
    fun h hopened => hnested h hopened.2.1

end Reactions

variable (hnested : ∀ t : Trigger, t ≠ .scheduled → ∀ r : RunHead, r.trigger = t.name → P r)
include hnested

theorem reaction_opensOnly (levels : Nat) : UpholdsReaction (OpensOnly P) (reaction levels) := by
  have on (levels : Nat) : UpholdsReaction (OpensOnly P) (reactionOn (fun _ _ => pure ()) levels) := by
    induction levels with
    | zero => exact fun _ _ => .pure _
    | succ levels ih =>
      exact upholdsReaction_onWrite_of fun t ht => executeNested_opensOnly ih (hnested t ht)
  rw [reaction_eq_reactionOn]
  exact on _

/-- A workflow that runs by itself opens what its context does, and what is nested in that. -/
theorem executeIn_opensOnly (x : Workflow) {c : Context} (record : Record)
    (hP : ∀ r, OpenedBy (x.considering record c) r → P r) :
    Upholds (OpensOnly P) (x.executeIn c record) := fun w =>
  runIn_fst_ends (execute_opensOnly (reaction_opensOnly hnested _) x record (f := ⟨w, c⟩) hP)

end Workflow

def Flow.leaves {α : Type} (part : Flow α) (w : World) : World :=
  match part w with
  | .ok _ v => v
  | .error _ v => v

namespace Workflow
variable {job record : Uuid} {w v : World} {x : Workflow}

/-! ## The key of a run -/

theorem scheduledKey_ne_empty (job record : Uuid) : scheduledKey job record ≠ "" := by
  intro h
  have hlist := congrArg String.toList h
  simp [scheduledKey] at hlist

def IsFor (job record : Uuid) (r : Run) : Bool := r.key = some (scheduledKey job record)

def isHandled (w : World) (job record : Uuid) : Bool := w.tables.runs.any (IsFor job record)

/-- A run that is triggered by a schedule has the key of the job for its record. -/
def Serves (job : Uuid) (h : RunHead) : Prop :=
  h.trigger = Trigger.scheduled.name →
    ∃ record, h.record = some record ∧ h.key = some (scheduledKey job record)

/-- A run remains, so that a record that was handled stays so. -/
theorem isHandled_of_opensOnly {P : RunHead → Prop} (h : Run.OpensOnly P w v)
    (hsaved : w.saved.runs = w.tables.runs) (hw : isHandled w job record = true) :
    isHandled v job record = true := by
  obtain ⟨-, new, hnew, -⟩ := h hsaved
  have heads (u : World) : isHandled u job record
      = (u.tables.runs.map Run.head).any fun h => h.key = some (scheduledKey job record) := by
    rw [List.any_map]
    rfl
  rw [heads, hnew, List.any_append, ← heads, hw, Bool.true_or]

/-! ## One pass -/

def turn (job : Uuid) (r : Record) (maxActions : Int) : Context :=
  { Context.root r Trigger.scheduled.name maxActions with key := some (scheduledKey job r.id) }

/-- At the turn of a record that matches, the workflow runs for it. -/
theorem runForEach_of_match {r : Record} (h : Condition.holds? r.context none x.conditions = true)
    (rest : List Record) (t : Tally) :
    runForEach x job (r :: rest) t w = (x.executeIn (turn job r w.settings.maxActions) r
      >>= fun answer => runForEach x job rest (t.add answer.status)) w := by
  rw [runForEach, if_pos h]
  rfl

theorem runForEach_of_no_match {r : Record}
    (h : Condition.holds? r.context none x.conditions ≠ true) (rest : List Record) (t : Tally) :
    runForEach x job (r :: rest) t = runForEach x job rest t := by
  rw [runForEach, if_neg h]

/-- At its turn a record gets a run under its key. What is nested in that run is not triggered by the
schedule. -/
theorem turn_opensOnly (x : Workflow) (job : Uuid) (r : Record) (maxActions : Int) :
    Upholds (Run.OpensOnly (Serves job)) (x.executeIn (turn job r maxActions) r) := by
  refine executeIn_opensOnly ?_ x r ?_
  · intro t ht h htrigger hscheduled
    refine absurd (htrigger.symm.trans hscheduled) ?_
    cases t with
    | scheduled => exact absurd rfl ht
    | onCreate | onUpdate | onFieldChange | manual => decide
  · exact fun h ⟨_, _, hrecord, _, hkey⟩ _ => ⟨r.id, hrecord, hkey⟩

/-- Every run that a pass opens for the schedule has the key of the job. -/
theorem runScheduled_opensOnly (job : Uuid) (payload : Value) :
    Upholds (Run.OpensOnly (Serves job)) (runScheduled job payload) := fun _ =>
  upholds_runScheduled job payload fun _ _ x _ r n => turn_opensOnly x job r n

theorem executeIn_disabled {c : Context} (record : Record) (hdisabled : x.isEnabled = false) :
    x.executeIn c record w = .ok (x.skipped record "workflow_disabled" none) w := by
  have executed : Ends (x.execute c.reaction record) ⟨w, c⟩
      (fun answer f => answer = x.skipped record "workflow_disabled" none ∧ f.world = w)
      fun _ _ => False := by
    unfold execute
    refine .step (a := ()) (t := ⟨w, x.considering record c⟩) rfl (.step (context_eq _) ?_)
    exact .ite (fun _ => .pure ⟨rfl, rfl⟩) fun h => absurd hdisabled (by simpa using h)
  have answered : Ends (x.executeIn c record) w
      (fun answer v => answer = x.skipped record "workflow_disabled" none ∧ v = w)
      fun _ _ => False := runIn_fst_ends executed
  obtain ⟨_, _, hx, rfl, rfl⟩ := answered.exists_ok
  exact hx

/-- Where there is a run under the key of the job nothing is done for the record. -/
theorem executeIn_handled {r : Record} (hapart : Run.KeysApart w.tables.runs)
    (h : isHandled w job r.id = true) (n : Int) :
    ∃ answer : RunResult, answer.status = .skipped
      ∧ x.executeIn (turn job r n) r w = .ok answer w := by
  obtain ⟨run, hrun, hkey⟩ := List.any_eq_true.mp h
  cases henabled : x.isEnabled with
  | false => exact ⟨_, rfl, executeIn_disabled r henabled⟩
  | true =>
    exact ⟨_, rfl, executeIn_duplicate r henabled hrun hapart rfl (of_decide_eq_true hkey)
      (scheduledKey_ne_empty job r.id)⟩

theorem runForEach_handled {r : Record} (hapart : Run.KeysApart w.tables.runs)
    (h : isHandled w job r.id = true) (rest : List Record) (t : Tally) :
    ∃ t', runForEach x job (r :: rest) t w = runForEach x job rest t' w := by
  by_cases hmatch : Condition.holds? r.context none x.conditions = true
  · obtain ⟨answer, hskipped, hanswer⟩ := executeIn_handled (x := x) hapart h w.settings.maxActions
    exact ⟨t.add .skipped, by rw [runForEach_of_match hmatch, bind_ok hanswer, hskipped]⟩
  · exact ⟨t, by rw [runForEach_of_no_match hmatch]⟩

/-- What stays true from one turn to the next. -/
theorem executeIn_keeps (x : Workflow) (c : Context) (r : Record) {answer : RunResult}
    (hsaved : w.saved.runs = w.tables.runs) (hapart : Run.KeysApart w.tables.runs)
    (h : x.executeIn c r w = .ok answer v) :
    (v.saved.runs = v.tables.runs ∧ Run.KeysApart v.tables.runs)
      ∧ Run.OpensOnly (fun _ => True) w v := by
  have apart : Upholds Run.KeepsApart (x.executeIn c r) := upholds_executeIn c x r
  have opens : Upholds (Run.OpensOnly fun _ => True) (x.executeIn c r) :=
    executeIn_opensOnly (fun _ _ _ _ => trivial) x r fun _ _ => trivial
  exact ⟨apart.ok h hsaved hapart, opens.ok h⟩

/-! ## Another pass -/

/-- A pass does what a pass does over the records that were not handled yet. -/
theorem runForEach_unhandled (x : Workflow) (job : Uuid) {skip : Record → Bool}
    (hsaved : w.saved.runs = w.tables.runs) (hapart : Run.KeysApart w.tables.runs)
    (hskip : ∀ r, skip r = true → isHandled w job r.id = true) (records : List Record)
    (t t' : Tally) :
    Flow.leaves (runForEach x job records t) w
      = Flow.leaves (runForEach x job (records.filter fun r => !skip r) t') w := by
  induction records generalizing w t t' with
  | nil => rfl
  | cons r rest ih =>
    cases hr : skip r with
    | true =>
      obtain ⟨t'', hturn⟩ := runForEach_handled (x := x) hapart (hskip r hr) rest t
      rw [List.filter_cons_of_neg (by simp [hr]), Flow.leaves, hturn]
      exact ih hsaved hapart hskip t'' t'
    | false =>
      rw [List.filter_cons_of_pos (by simp [hr])]
      by_cases hmatch : Condition.holds? r.context none x.conditions = true
      · simp only [Flow.leaves, runForEach_of_match hmatch]
        cases hx : x.executeIn (turn job r w.settings.maxActions) r w with
        | error e v => rw [bind_error hx, bind_error hx]
        | ok answer v =>
          obtain ⟨⟨hsaved', hapart'⟩, hopens⟩ := executeIn_keeps x _ r hsaved hapart hx
          rw [bind_ok hx, bind_ok hx]
          exact ih hsaved' hapart' (fun r hr => isHandled_of_opensOnly hopens hsaved (hskip r hr)) _ _
      · rw [runForEach_of_no_match hmatch, runForEach_of_no_match hmatch]
        exact ih hsaved hapart hskip t t'

end Workflow

end RecordFlow
