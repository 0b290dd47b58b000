import RecordFlow.Proofs.Run.Launch
import RecordFlow.Proofs.Run.Upheld

/-! # Actions that fail are undone

An action that fails leaves the tables as they were saved last. That may be after the action has
written to its record: the runs that a write triggers save all tables when they are opened, the write
among them. As long as no run is opened, nothing is saved, and an action that fails leaves no trace.
-/
namespace RecordFlow
open RecordFlow.Flow Scoped

/-! ## Rows of runs that grow in number -/

def RunsGrow (w v : World) : Prop :=
  w.saved.runs = w.tables.runs →
    v.saved.runs = v.tables.runs ∧ w.saved.runs.length ≤ v.saved.runs.length

theorem runsGrow_of_runs {w v : World} (htables : v.tables.runs = w.tables.runs)
    (hsaved : v.saved.runs = w.saved.runs) : RunsGrow w v := fun hw =>
  ⟨by rw [htables, hsaved, hw], Nat.le_of_eq (congrArg List.length hsaved.symm)⟩

instance : IsPreorder World RunsGrow where
  refl _ := runsGrow_of_runs rfl rfl
  trans _ _ _ h h' hw := by
    obtain ⟨hv, hle⟩ := h hw
    obtain ⟨hu, hle'⟩ := h' hv
    exact ⟨hu, Nat.le_trans hle hle'⟩

instance : Lenient RunsGrow where
  numbered _ _ := runsGrow_of_runs rfl rfl
  unstored _ _ h _ := runsGrow_of_runs (by rw [h.tables]) (by rw [h.saved])

theorem runsGrow_committed (w : World) : RunsGrow w w.committed := fun hw =>
  ⟨rfl, Nat.le_of_eq (congrArg List.length hw)⟩

theorem runsGrow_rolledBack (w : World) : RunsGrow w w.rolledBack := fun _ =>
  ⟨rfl, Nat.le_refl _⟩

instance : Undoes World.rolledBack RunsGrow where
  undone := runsGrow_rolledBack

/-- What an operation does that leaves the rows of runs alone, however it ends. -/
theorem Keeps.runsGrow {α : Type} {part : Flow α} (h : Incidental (Beside true) part) :
    Upholds RunsGrow part :=
  .of_keeps (h.mono (fun _ h => h) fun _ _ h => runsGrow_of_runs h.runs (by rw [h.saved]))

theorem Run.Opens.more {c : Context} {w v : World} {row : Run} (h : Opens c w row v)
    (hw : w.saved.runs = w.tables.runs) :
    v.saved.runs = v.tables.runs ∧ w.saved.runs.length < v.saved.runs.length := by
  rw [h.world]
  refine ⟨rfl, ?_⟩
  simp [World.saveRuns, hw]

theorem Run.openRun_runsGrow (c : Context) : Upholds RunsGrow (openRun c) := fun w => by
  refine (openRun_ends c w).mono (fun row v h hw => ?_) fun e v h => ?_
  · exact (h.more hw).imp_right Nat.le_of_lt
  · exact trans_of RunsGrow (runsGrow_of_runs h.2.runs (by rw [h.2.saved])) (runsGrow_rolledBack v)

instance : Tolerant RunsGrow where
  records := ⟨fun _ _ => runsGrow_of_runs rfl rfl⟩
  children := ⟨fun _ _ => runsGrow_of_runs rfl rfl⟩
  cooldowns := ⟨fun _ _ => runsGrow_of_runs rfl rfl⟩
  rules := ⟨fun _ _ => runsGrow_of_runs rfl rfl⟩
  messages := ⟨fun _ _ => runsGrow_of_runs rfl rfl⟩
  cadences := ⟨fun _ _ => runsGrow_of_runs rfl rfl⟩
  workflows := ⟨fun _ _ => runsGrow_of_runs rfl rfl⟩
  schedule d := (incidental_schedule (R := Beside true) d).mono (fun _ h => h) fun _ _ h =>
    runsGrow_of_runs h.runs (by rw [h.saved])
  outside _ _ h := runsGrow_of_runs (by rw [h.tables]) (by rw [h.saved])
  amongst _ _ _ h := h
  commits := runsGrow_committed
  undone := runsGrow_rolledBack
  opens := Run.openRun_runsGrow
  savesRun w id change _ hw := ⟨rfl, by simp [World.saveRuns, Run.changeRow, hw]⟩
  enrolls cadence record by_ := (incidental_enroll cadence record by_).runsGrow
  unenrolls record cadence reason actor := (incidental_unenroll record cadence reason actor).runsGrow

/-! ## What is saved -/

def SavedByRuns (w v : World) : Prop :=
  w.saved.runs = w.tables.runs → v.saved.runs = v.tables.runs
    ∧ (v.saved = w.saved ∨ w.saved.runs.length < v.saved.runs.length)

theorem savedByRuns_of_saved {w v : World} (htables : v.tables.runs = w.tables.runs)
    (hsaved : v.saved = w.saved) : SavedByRuns w v := fun hw =>
  ⟨by rw [hsaved, htables, hw], .inl hsaved⟩

theorem SavedByRuns.runsGrow {w v : World} (h : SavedByRuns w v) : RunsGrow w v := fun hw => by
  obtain ⟨hv, hsame | hmore⟩ := h hw
  · exact ⟨hv, Nat.le_of_eq (congrArg (·.runs.length) hsame.symm)⟩
  · exact ⟨hv, Nat.le_of_lt hmore⟩

instance : IsPreorder World SavedByRuns where
  refl _ := savedByRuns_of_saved rfl rfl
  trans w v u h h' hw := by
    obtain ⟨hv, hsaved⟩ := h hw
    obtain ⟨hu, hsaved'⟩ := h' hv
    refine ⟨hu, ?_⟩
    have hle := (h.runsGrow hw).2
    rcases hsaved' with hsame' | hmore'
    · rcases hsaved with hsame | hmore
      · exact .inl (hsame'.trans hsame)
      · exact .inr (hsame' ▸ hmore)
    · exact .inr (Nat.lt_of_le_of_lt hle hmore')

instance : Lenient SavedByRuns where
  numbered _ _ := savedByRuns_of_saved rfl rfl
  unstored _ _ h _ := savedByRuns_of_saved (by rw [h.tables]) h.saved

theorem savedByRuns_rolledBack (w : World) : SavedByRuns w w.rolledBack := fun _ => ⟨rfl, .inl rfl⟩

instance : Undoes World.rolledBack SavedByRuns where
  undone := savedByRuns_rolledBack

instance : Indifferent SavedByRuns StoredRecord := ⟨fun _ _ => savedByRuns_of_saved rfl rfl⟩
instance : Indifferent SavedByRuns AssignmentRule := ⟨fun _ _ => savedByRuns_of_saved rfl rfl⟩
instance : Indifferent SavedByRuns Cooldown := ⟨fun _ _ => savedByRuns_of_saved rfl rfl⟩

/-- A run saves only once it is opened, and then there is a row more. -/
theorem Run.runActions_savedByRuns {react : Reaction} (hreact : UpholdsReaction RunsGrow react) :
    UpholdsRuns SavedByRuns react := fun actions halts f => by
  unfold runActions
  refine .step rfl ((Ends.lift (openRun_ends f.context f.world)).bind ?_ ?_)
  · -- no row was written, and nothing was saved
    intro e g h
    exact trans_of SavedByRuns (savedByRuns_of_saved h.2.runs h.2.saved)
      (savedByRuns_rolledBack g.world)
  · -- from here on there is a row more, whatever else the run saves
    rintro row g - ⟨hopens, -⟩
    have after {u : World} (hu : RunsGrow g.world u) : SavedByRuns f.world u := fun hf => by
      obtain ⟨hg, hmore⟩ := hopens.more hf
      obtain ⟨hsame, hle⟩ := hu hg
      exact ⟨hsame, .inr (Nat.lt_of_lt_of_le hmore hle)⟩
    exact (upholdsIn_opened hreact row.id actions halts g).mono (fun _ _ => after) fun _ _ => after

theorem Workflow.reaction_savedByRuns (levels : Nat) :
    UpholdsReaction SavedByRuns (reaction levels) := by
  cases levels with
  | zero =>
    have nothing : UpholdsReaction RunsGrow fun _ _ => pure () := fun _ _ => .pure _
    exact upholdsReaction_onWrite (Run.runActions_savedByRuns nothing)
  | succ levels =>
    exact upholdsReaction_onWrite (Run.runActions_savedByRuns (upholdsReaction_reaction levels))

/-! ## Actions on the record -/

namespace Action
variable {react : Reaction} {a : Action}

def writesRecord (a : Action) : Bool :=
  match a.operation with
  | .updateFields _ | .moveStage _ | .assignOwner _ _ _ => true
  | _ => false

/-- An action on the record that does not break off has succeeded. -/
theorem carryOut_succeeds (react : Reaction) (h : a.writesRecord = true) :
    Gives (carryOut react a) fun e => e.error = none := by
  obtain ⟨id, condition, operation⟩ := a
  cases operation with
  | updateFields fields =>
    refine .bind fun c => .bind fun changes => .bind fun before => ?_
    exact .ite (.pure rfl) (.bind fun _ => .pure rfl)
  | moveStage stage =>
    exact .bind fun c => .ite (.pure rfl) (.ite (.pure rfl) (.bind fun _ => .pure rfl))
  | assignOwner rule strategy user =>
    refine .bind fun c => .bind fun choice => .ite (.pure rfl) (.ite (.pure rfl) ?_)
    exact .ite (.pure rfl) (.bind fun _ => .bind fun _ => .bind fun _ => .pure rfl)
  | _ => cases h

theorem carryOut_savedByRuns (h : a.writesRecord = true)
    (hreact : UpholdsReaction SavedByRuns react) : UpholdsIn SavedByRuns (carryOut react a) := by
  obtain ⟨id, condition, operation⟩ := a
  cases operation with
  | updateFields fields => exact steady_updateFields (upholdsIn_applyPatch hreact) fields
  | moveStage stage => exact steady_moveStage (upholdsIn_applyPatch hreact) stage
  | assignOwner rule strategy user => exact steady_assignOwner (upholdsIn_applyPatch hreact) rule strategy user
  | _ => cases h

/-- What a failed action leaves: the tables as they were saved last, which is what was saved before
the action, unless a run was opened since. -/
structure Undone (w v : World) : Prop where
  rolledBack : v.tables = v.saved
  saved : v.saved = w.saved ∨ w.saved.runs.length < v.saved.runs.length

theorem attempt_undone (h : a.writesRecord = true) (hreact : UpholdsReaction SavedByRuns react)
    {f : Frame} (hruns : f.world.saved.runs = f.world.tables.runs) :
    Yields (attempt react a) f fun r g => r.status = .failed → Undone f.world g.world := by
  unfold attempt
  cases hc : f.context.budget.consume a.kind with
  | error l => exact Ends.of_error (bind_error (consume_error hc) _) trivial
  | ok b =>
    refine .step (consume_ok hc) ?_
    let started : Frame := { f with context := { f.context with budget := b } }
    have upheld := carryOut_savedByRuns h hreact started
    have succeeds := carryOut_succeeds react h started
    refine (orFailure_ends (Ends.and upheld succeeds)).bind (fun _ _ _ => trivial) ?_
    rintro (cause | effect) g - hg
    · -- what was done is undone
      obtain ⟨-, hsaved⟩ := hg.2.1 hruns
      exact Ends.of_ok rfl fun _ => ⟨rfl, hsaved⟩
    · refine Yields.pure fun hfailed => ?_
      rw [Effect.result, hg.2] at hfailed
      cases hfailed

/-- Where an action on the record fails, in whatever state and whichever workflows its write has
triggered, everything that was not saved is undone. So the record is stored as it was saved before
the action, unless a run was opened in reaction to the write, which saves the write with its row. -/
theorem perform_undone (h : a.writesRecord = true) (levels : Nat) {f : Frame}
    (hruns : f.world.saved.runs = f.world.tables.runs) :
    Yields (perform (Workflow.reaction levels) a) f fun r g =>
      r.status = .failed → Undone f.world g.world :=
  perform_of_attempt nofun (attempt_undone h (Workflow.reaction_savedByRuns levels) hruns)
    fun _ _ _ hr hfailed => ⟨(hr hfailed).rolledBack, (hr hfailed).saved⟩

def outdated : Frame where
  world := Launch.retitledDeals
  context := { Launch.retitledContext with
    record := { Launch.retitledContext.record with version := 0 } }

def winning : Action := ⟨"win", none, .updateFields [("status", .str "won")]⟩

theorem winning_outdated : passes (perform (Workflow.reaction 2) winning) outdated
    (fun r g => r.status = .failed && g.world.saved.runs.length == 0) = true := by decide +kernel

/-- The write is refused, and all tables are as they were saved before. -/
theorem perform_undone_outdated : winning.writesRecord = true
    ∧ outdated.world.saved.runs = outdated.world.tables.runs
    ∧ Ends (perform (Workflow.reaction 2) winning) outdated
      (fun r g => r.status = .failed ∧ g.world.tables = outdated.world.saved) fun _ _ => False := by
  have hruns : outdated.world.saved.runs = outdated.world.tables.runs := by
    simp [outdated, Launch.retitledDeals]
  have undone := perform_undone (a := winning) rfl 2 hruns
  refine ⟨rfl, hruns, ((Ends.of_passes winning_outdated).and undone).mono ?_ fun _ _ h => h.1⟩
  rintro r g ⟨hfailed, hundone⟩
  rw [Bool.and_eq_true, decide_eq_true_iff, beq_iff_eq] at hfailed
  obtain ⟨hrolled, hsame | hmore⟩ := hundone hfailed.1
  · exact ⟨hfailed.1, hrolled.trans hsame⟩
  · omega

/-- A deal with a tag, a workflow that leaves a note whenever a deal is written to, and one that
watches a place among the tags that no number names. -/
@[irreducible]
def taggedDeals : World :=
  let deal : StoredRecord := {
    id := TableName.record.rowId 1
    module := "deals"
    ownerId := none
    stage := none
    title := none
    isOpen := true
    data := .obj [("tags", .list [.str "a"])]
    createdBy := none
    version := 1
    createdAt := ⟨0⟩ }
  let noting (n : Nat) : StoredWorkflow := { (default : StoredWorkflow) with
    id := TableName.workflow.rowId n
    name := "note"
    module := "deals"
    isEnabled := true
    actions := .list [.obj [("type", .str "add_note"), ("body", .str "seen")]] }
  let tables := { Tables.empty with
    records := [deal]
    workflows := [
      { noting 1 with trigger := Trigger.onUpdate.name },
      { noting 2 with
        trigger := Trigger.onFieldChange.name
        config := .obj [("watch_fields", .list [.str "tags.²"])] }] }
  { World.initial ⟨⟨0⟩, 0⟩ .standard .complete [] with tables := tables, saved := tables }

def tagged : Frame where
  world := taggedDeals
  context := { Launch.retitledContext with
    record := { Launch.retitledContext.record with fields := [("tags", .list [.str "a"])] } }

set_option maxRecDepth 10000 in
theorem winning_tagged : passes (perform tagged.context.reaction winning) tagged
    (fun r g => r.status = .failed && g.world.tables.records.map (·.version) == [2]) = true := by
  decide +kernel

/-- The run that leaves the note saves the write; then the place among the tags cannot be read, and
the action fails. -/
theorem failed_perform_not_undone : ¬ ∀ (a : Action) (f : Frame), a.writesRecord = true →
    f.world.saved = f.world.tables → Yields (perform f.context.reaction a) f fun r g =>
      r.status = .failed → g.world.tables.records = f.world.tables.records := by
  intro undone
  have saved : tagged.world.saved = tagged.world.tables := by simp [tagged, taggedDeals]
  have versions : tagged.world.tables.records.map (·.version) = [1] := by
    simp [tagged, taggedDeals]
  have ends := (Ends.of_passes winning_tagged).and (undone winning tagged rfl saved)
  cases hx : perform tagged.context.reaction winning tagged with
  | error e g => exact (ends.bad_of hx).1
  | ok r g =>
    obtain ⟨hfailed, hsame⟩ := ends.ok_of hx
    rw [Bool.and_eq_true, decide_eq_true_iff, beq_iff_eq] at hfailed
    rw [hsame hfailed.1, versions] at hfailed
    exact absurd hfailed.2 (by decide)

end Action

end RecordFlow
