import RecordFlow.Proofs.Run.Reaction

/-! # Runs by themselves

A run by itself carries out actions, or a workflow on a record, with a budget that is shared with
all runs nested in it. Whatever the workflows are that its writes trigger, among them itself, the
cascade comes to an end within the budget, and the run answers with a result: one that says capped
if an action was refused for want of budget.
-/
namespace RecordFlow
open RecordFlow.Flow Scoped

inductive Launch where
  | actions (actions : List Action) (halts : Bool)
  | workflow (w : Workflow) (record : Record)

namespace Launch

def part (react : Reaction) : Launch → Scoped RunResult
  | actions as halts => Run.runActions react as halts
  | workflow w record => w.execute react record

/-- The context in which the actions are carried out. A workflow lowers the budget to its cap. -/
def context (c : Context) : Launch → Context
  | actions _ _ => c
  | workflow w record => w.cappedBudget (w.considering record c)

def steps : Launch → List Action
  | actions as _ => as
  | workflow w _ => w.actions

def halts : Launch → Bool
  | actions _ halts => halts
  | workflow w _ => w.haltOnFailure

def run (c : Context) (l : Launch) : Flow (RunResult × Context) := runIn c (l.part c.reaction)

theorem start_eq (c : Context) (as : List Action) (halts : Bool) :
    Run.start c as halts = Prod.fst <$> (actions as halts).run c :=
  (map_eq_pure_bind Prod.fst _).symm

theorem context_eq (l : Launch) (c : Context) : ∃ maxActions ≤ c.budget.maxActions,
    (l.context c).budget = { c.budget with maxActions := maxActions }
      ∧ (l.context c).depth = c.depth ∧ (l.context c).parent = c.parent := by
  cases l with
  | actions as halts => exact ⟨_, Int.le_refl _, rfl, rfl, rfl⟩
  | workflow w record =>
    obtain ⟨m, hm, heq⟩ := w.cappedBudget_eq (w.considering record c)
    exact ⟨m, hm, by rw [context, heq]; rfl, by rw [context, heq]; rfl, by rw [context, heq]; rfl⟩

theorem depth_context (l : Launch) (c : Context) : (l.context c).depth = c.depth := by
  obtain ⟨-, -, -, hdepth, -⟩ := l.context_eq c
  exact hdepth

theorem parent_context (l : Launch) (c : Context) : (l.context c).parent = c.parent := by
  obtain ⟨-, -, -, -, hparent⟩ := l.context_eq c
  exact hparent

theorem consumed_context (l : Launch) (c : Context) :
    (l.context c).budget.consumed = c.budget.consumed := by
  obtain ⟨m, -, hbudget, -⟩ := l.context_eq c
  rw [hbudget]

theorem remaining_context (l : Launch) (c : Context) :
    (l.context c).budget.remaining ≤ c.budget.remaining := by
  obtain ⟨m, hm, hbudget, -⟩ := l.context_eq c
  simp only [hbudget, Budget.remaining]
  omega

/-- No action was refused: every run that was opened has a result for each of its actions, up to one
that it ended with. -/
def WentThrough (l : Launch) (w : World) (r : RunResult) (new : List Run)
    (notes : List AuditEntry) : Prop :=
  r.status ≠ .capped ∧ notes.countP AuditEntry.tellsLimit = 0
    ∧ (new = [] ∧ r.status = .skipped ∨ ∃ row inner, new = row :: inner ∧ r.run = some row.id
      ∧ row.status = r.status.name ∧ row.WentThrough l.steps l.halts
      ∧ ∀ s ∈ inner, s.IsDone w.tables.workflows)

/-- An action was refused when the budget was used up: the runs that were open then are capped, with
the same limit in their rows, which tells the innermost of them, and the limit is told once. -/
def WasCapped (w : World) (r : RunResult) (d : Context) (new : List Run)
    (notes : List AuditEntry) : Prop :=
  r.status = .capped ∧ notes.countP AuditEntry.tellsLimit = 1
    ∧ ∃ (limit : LimitReached) (row : Run) (inner chain : List Run), new = row :: inner
      ∧ r.run = some row.id ∧ limit.TellsOf d.budget
      ∧ Run.CutBy w.tables.workflows limit none (row :: chain) new notes

structure Leaves (l : Launch) (c : Context) (w : World) (r : RunResult) (d : Context) (v : World)
    (new : List Run) (notes : List AuditEntry) : Prop where
  runs : v.tables.runs = w.tables.runs ++ new
  audit : v.journal.audit = w.journal.audit ++ notes
  free : v.RunsFree
  settled : w.Settled → v.Settled
  ledger : v.tables.ledger = w.tables.ledger
  numbers : ∀ t, w.nextNumber t ≤ v.nextNumber t
  grows : c.budget.consumed ≤ d.budget.consumed
  bounded : d.budget.consumed ≤ max c.budget.consumed (l.context c).budget.maxActions
  depths : ∀ s ∈ new, ∃ depth : Int, s.depth = .int depth ∧ c.depth ≤ depth
    ∧ depth ≤ c.depth + (l.context c).budget.remaining
  ending : l.WentThrough w r new notes ∨ WasCapped w r d new notes

variable {l : Launch} {c : Context} {w : World} {r : RunResult} {g : Frame}

theorem leaves_of_passedOver (hfree : w.RunsFree)
    (h : Workflow.PassedOver { world := w, context := c } r g) :
    ∃ new notes, l.Leaves c w r g.context g.world new notes := by
  obtain ⟨hskipped, hbeside, hbudget⟩ := h
  obtain ⟨notes, haudit, hquiet⟩ := hbeside.notes
  have hsame : g.context.budget.consumed = c.budget.consumed := congrArg Budget.consumed hbudget
  refine ⟨[], notes, by rw [hbeside.runs, List.append_nil], haudit, hfree.beside hbeside,
    fun hw => hw.beside hbeside, hbeside.ledger, hbeside.numbers, by omega, by omega, by simp,
    .inl ⟨?_, ?_, .inl ⟨rfl, hskipped⟩⟩⟩
  · rw [hskipped]
    decide
  · exact List.countP_eq_zero.mpr fun e he => by simp [hquiet e he]

theorem leaves_of_spread {new : List Run} {notes : List AuditEntry}
    (hs : Spread (l.context c).depth (c.depth + (l.context c).budget.remaining) w g.world new notes)
    (hb : Spent (l.context c).budget g.context.budget)
    (hend : l.WentThrough w r new notes ∨ WasCapped w r g.context new notes) :
    l.Leaves c w r g.context g.world new notes where
  runs := hs.runs
  audit := hs.audit
  free := hs.settled.free
  settled _ := hs.settled
  ledger := hs.ledger
  numbers := hs.numbers
  grows := l.consumed_context c ▸ hb.grows
  bounded := l.consumed_context c ▸ hb.bounded
  depths := l.depth_context c ▸ hs.depths
  ending := hend

theorem leaves_of_runEnds (hroot : c.parent = none)
    (h : Run.RunEnds (c.depth + (l.context c).budget.remaining) w.tables.workflows l.steps l.halts
      (l.context c) w r g) : ∃ new notes, l.Leaves c w r g.context g.world new notes := by
  rcases h with ⟨row, inner, notes, h⟩ | ⟨-, hr, limit, row, inner, notes, chain, h, hid⟩
  · have hquiet : notes.countP AuditEntry.tellsLimit = 0 :=
      List.countP_eq_zero.mpr fun e he => by simp [h.quiet e he]
    have hgoing : r.status ≠ .capped := by
      rcases h.going with hr | hr
      · rw [hr]; decide
      · rw [hr]; decide
    exact ⟨row :: inner, notes, leaves_of_spread h.spread h.budget
      (.inl ⟨hgoing, hquiet, .inr ⟨row, inner, rfl, h.id, h.status, h.went, h.done⟩⟩)⟩
  · have hcut := h.cut
    rw [l.parent_context c, hroot] at hcut
    exact ⟨row :: inner, notes, leaves_of_spread h.spread h.budget
      (.inr ⟨hr, h.cut.told.count_eq_one, limit, row, inner, chain, rfl, hid, h.tells, hcut⟩)⟩

/-- Two reactions that have as many levels as the budget allows make no difference to a run. -/
theorem part_ends (l : Launch) (hroot : c.parent = none) (hfree : w.RunsFree)
    (bottom bottom' : Reaction) {m n : Nat} (hm : (l.context c).budget.remaining ≤ m)
    (hn : (l.context c).budget.remaining ≤ n) :
    Alike (l.part (Workflow.reactionOn bottom m)) (l.part (Workflow.reactionOn bottom' n))
      { world := w, context := c }
      (fun r g => ∃ new notes, l.Leaves c w r g.context g.world new notes)
      (fun e g => e.isLimit = false ∧ Beside false w g.world) := by
  have hb := Workflow.bounded_reactionOn bottom bottom'
    (c.depth + (l.context c).budget.remaining) w.tables.workflows hm hn
  have unlimited {e : Failure} {g : Frame} (h : Run.RunFails
      (c.depth + (l.context c).budget.remaining) w.tables.workflows (l.context c) w e g) : False := by
    have hsome := h.1
    rw [l.parent_context c, hroot] at hsome
    cases hsome
  cases l with
  | actions as halts =>
    refine (Run.runActions_ends hb as halts hfree rfl (Nat.le_refl _) (Int.le_refl _)).mono ?_ ?_
    · exact fun r g h => leaves_of_runEnds (l := actions as halts) hroot h
    · exact fun e g h => h.elim (fun h => ⟨h.unlimited, h.beside.world⟩) fun h => (unlimited h).elim
  | workflow v record =>
    refine (Workflow.execute_ends hb v record hfree rfl (Nat.le_refl _) (Int.le_refl _)).mono ?_ ?_
    · exact fun r g h => h.elim (leaves_of_passedOver hfree)
        (leaves_of_runEnds (l := workflow v record) hroot)
    · exact fun e g h => h.elim (fun h => ⟨h.1, h.2.1⟩) fun h => (unlimited h).elim

/-- The reaction of a run by itself has a level more than its budget allows. -/
theorem reaction_eq (c : Context) :
    c.reaction = Workflow.reactionOn (fun _ _ => pure ()) (c.budget.remaining + 1) :=
  Workflow.reaction_eq_reactionOn _

/-- A run by itself answers with a result unless it cannot be opened. -/
theorem leaves_ends (l : Launch) (hroot : c.parent = none) (hfree : w.RunsFree) :
    Ends (l.run c) w (fun out v => ∃ new notes, l.Leaves c w out.1 out.2 v new notes)
      (fun e v => e.isLimit = false ∧ Beside false w v) := by
  have enough : (l.context c).budget.remaining ≤ c.budget.remaining + 1 :=
    Nat.le_succ_of_le (l.remaining_context c)
  have ends := (l.part_ends hroot hfree (fun _ _ => pure ()) (fun _ _ => pure ()) enough enough).ends
  rw [← reaction_eq] at ends
  exact runIn_ends ends

/-- A run by itself comes to its end within the budget, whatever the workflows are that its writes
trigger: what would happen below the levels that the budget allows makes no difference. The units
that it takes off the budget, together with all runs nested in it, and the depth of these are
bounded by the budget. If an action would go beyond it, all runs that are open then are capped, and
the run answers with a capped result. It never fails for want of budget, nor for any other reason
once it was opened. -/
theorem run_ends (l : Launch) (c : Context) (w : World) (hroot : c.parent = none)
    (hfree : w.RunsFree) :
    (∀ (bottom : Reaction) (levels : Nat), (l.context c).budget.remaining ≤ levels →
      runIn c (l.part (Workflow.reactionOn bottom levels)) w = l.run c w)
    ∧ Ends (l.run c) w
      (fun out v => ∃ new notes, l.Leaves c w out.1 out.2 v new notes)
      (fun e v => e.isLimit = false ∧ Beside false w v) := by
  refine ⟨fun bottom levels hlevels => ?_, l.leaves_ends hroot hfree⟩
  have enough : (l.context c).budget.remaining ≤ c.budget.remaining + 1 :=
    Nat.le_succ_of_le (l.remaining_context c)
  have alike := l.part_ends hroot hfree (fun _ _ => pure ()) bottom enough hlevels
  rw [run, reaction_eq, runIn, runIn, alike.same]

@[irreducible]
def retitledDeals : World :=
  let deal : StoredRecord := {
    id := TableName.record.rowId 1
    module := "deals"
    ownerId := none
    stage := none
    title := none
    isOpen := true
    data := .obj []
    createdBy := none
    version := 1
    createdAt := ⟨0⟩ }
  let retitling : StoredWorkflow := { (default : StoredWorkflow) with
    id := TableName.workflow.rowId 1
    name := "retitle"
    module := "deals"
    isEnabled := true
    trigger := Trigger.onUpdate.name
    actions := .list [.obj [("type", .str "update_fields"),
      ("fields", .obj [("title", .str "Deal")])]] }
  let tables := { Tables.empty with records := [deal], workflows := [retitling] }
  { World.initial ⟨⟨0⟩, 0⟩ .standard .complete [] with tables := tables, saved := tables }

def retitledContext : Context :=
  .root { (default : Record) with id := TableName.record.rowId 1, module := .str "deals", version := 1 }
    Trigger.manual.name 2

def retitle : Launch := actions [⟨"first", none, .updateFields [("title", .str "Deal")]⟩] true

theorem retitledDeals_runsFree : retitledDeals.RunsFree := fun _ _ _ hr => absurd hr (by
  simp [retitledDeals, World.initial, Tables.empty])

set_option maxRecDepth 10000 in
theorem retitle_capped : passes (retitle.run retitledContext) retitledDeals
    (fun out _ => decide (out.1.status = .capped)) = true := by decide +kernel

/-- The workflow triggers itself until the budget is used up. -/
theorem run_ends_retitle : retitledContext.parent = none ∧ retitledDeals.RunsFree
    ∧ Ends (retitle.run retitledContext) retitledDeals
      (fun out v => out.1.status = .capped ∧ ∃ new notes,
        retitle.Leaves retitledContext retitledDeals out.1 out.2 v new notes)
      fun _ _ => False := by
  have hroot : retitledContext.parent = none := rfl
  obtain ⟨-, ends⟩ := run_ends retitle retitledContext retitledDeals hroot retitledDeals_runsFree
  have capped := Ends.of_passes retitle_capped
  refine ⟨hroot, retitledDeals_runsFree, (capped.and ends).mono ?_ ?_⟩
  · exact fun out v h => ⟨of_decide_eq_true h.1, h.2⟩
  · exact fun e v h => h.1

end Launch

end RecordFlow
