import RecordFlow.Proofs.Record.Patch
import RecordFlow.Proofs.Run.Upheld

/-! # What becomes of other records

A run writes to the row of its own record, and the runs that are nested in it are for the same record. So
whatever a run does, and whether it succeeds or fails, what is stored of any other record stays as it is.
-/
namespace RecordFlow
open RecordFlow.Flow Scoped
variable {id subject : Uuid} {w v : World}

def Tables.rowOf? (t : Tables) (id : Uuid) : Option StoredRecord :=
  t.records.find? fun row => row.id = id

theorem Tables.Holds.of_rowOf? {t t' : Tables} {r : Record} (h : t.Holds r)
    (hrow : t'.rowOf? r.id = t.rowOf? r.id) : t'.Holds r := by
  obtain ⟨row, hf, hr⟩ := h
  exact ⟨row, hrow.trans hf, hr⟩

/-- The row of a record is saved as it is, and no rivals are to come. -/
structure World.Rests (id : Uuid) (w : World) : Prop where
  calm : w.rivalWrites = 0
  saved : w.saved.rowOf? id = w.tables.rowOf? id

def Untouched (id : Uuid) (w v : World) : Prop :=
  w.Rests id → v.Rests id ∧ v.tables.rowOf? id = w.tables.rowOf? id

theorem Untouched.of_rows (hrivals : v.rivalWrites ≤ w.rivalWrites)
    (htables : v.tables.rowOf? id = w.tables.rowOf? id)
    (hsaved : v.saved.rowOf? id = w.saved.rowOf? id) : Untouched id w v := fun hw =>
  ⟨⟨Nat.le_zero.mp (hw.calm ▸ hrivals), by rw [hsaved, htables, hw.saved]⟩, htables⟩

theorem untouched_of_rests {α : Type} {part : Flow α}
    (h : w.Rests id → Ends part w (fun _ v => Untouched id w v) fun _ v => Untouched id w v) :
    Ends part w (fun _ v => Untouched id w v) fun _ v => Untouched id w v := by
  by_cases hw : w.Rests id
  · exact h hw
  · exact Ends.any.mono (fun _ _ _ h => absurd h hw) fun _ _ _ h => absurd h hw

instance : IsPreorder World (Untouched id) where
  refl _ hw := ⟨hw, rfl⟩
  trans _ _ _ h h' hw := by
    obtain ⟨hv, hrow⟩ := h hw
    obtain ⟨hu, hrow'⟩ := h' hv
    exact ⟨hu, hrow'.trans hrow⟩

theorem Untouched.of_outside (h : Outside w v) : Untouched id w v :=
  .of_rows h.rivals (by rw [h.tables]) (by rw [h.saved])

instance : Lenient (Untouched id) where
  numbered _ _ := .of_rows (Nat.le_refl _) rfl rfl
  unstored _ _ h _ := .of_outside h

section Instances

theorem Untouched.of_tables {t : Tables} (h : t.records = w.tables.records) :
    Untouched id w { w with tables := t } :=
  .of_rows (Nat.le_refl _) (by rw [Tables.rowOf?, h, Tables.rowOf?]) rfl

instance : Indifferent (Untouched id) Child := ⟨fun _ _ => .of_tables rfl⟩
instance : Indifferent (Untouched id) Cooldown := ⟨fun _ _ => .of_tables rfl⟩
instance : Indifferent (Untouched id) AssignmentRule := ⟨fun _ _ => .of_tables rfl⟩
instance : Indifferent (Untouched id) Enrollment := ⟨fun _ _ => .of_tables rfl⟩
instance : Indifferent (Untouched id) Job := ⟨fun _ _ => .of_tables rfl⟩
instance : Indifferent (Untouched id) Message := ⟨fun _ _ => .of_tables rfl⟩

end Instances

theorem Untouched.saveRuns (w : World) (runs : List Run) : Untouched id w (w.saveRuns runs) := fun hw =>
  ⟨⟨hw.calm, rfl⟩, rfl⟩

instance : Undoes World.rolledBack (Untouched id) where
  undone _ hw := ⟨⟨hw.calm, rfl⟩, hw.saved⟩

instance : Attending (Untouched id) where
  children := inferInstance
  rules := inferInstance
  messages := inferInstance
  apart _ _ h _ := .of_outside h
  undone := Undoes.undone
  enrolls _ _ _ := Incidental.upholds (incidental_enroll _ _ _)
  unenrolls _ _ _ _ := Incidental.upholds (incidental_unenroll _ _ _ _)
  outside _ _ := .of_outside
  savesRun w _ _ _ := .saveRuns w _

/-! ## Patches -/

/-- A row keeps its identifier under any changes. -/
theorem StoredRecord.id_of_write {row next : StoredRecord} {fields changes : Fields}
    (h : row.write fields changes = .ok (some next)) : next.id = row.id := by
  unfold write at h
  simp only [bind, Except.bind, pure, Except.pure] at h
  repeat' split at h
  any_goals cases h
  obtain ⟨_, _, rfl⟩ := Option.map_eq_some_iff.mp (Except.ok.inj h)
  rfl

theorem Record.prepare_ends (changes : Fields) (seen : Int) (w : World) :
    Yields (prepare subject changes seen) w fun next _ => ∀ row, next = some row → row.id = subject := by
  unfold prepare
  refine (fetch_ends subject w).yields.bind ?_
  rintro row _ ⟨rfl, hf⟩
  have hid : row.id = subject := id_of_find? hf
  refine (shaped_ends row.toRecord _).yields.bind ?_
  rintro current _ ⟨rfl, -⟩
  refine .guarded fun _ => ?_
  cases hwrite : row.write current.fields changes with
  | error cause => exact Ends.of_error rfl trivial
  | ok next =>
    refine Ends.of_ok (a := next) rfl fun row' hnext => ?_
    exact (StoredRecord.id_of_write (hwrite.trans (congrArg Except.ok hnext))).trans hid

theorem Record.patched_id (subject : Uuid) (changes : Fields) (seen : Int) (w : World) :
    Yields (patch subject changes seen) w fun after _ => after.id = subject := by
  rw [patch_parts]
  refine Ends.any.yields.bind fun next v _ => ?_
  unfold complete
  refine Ends.any.yields.bind fun swapped u _ => .guarded fun _ => ?_
  refine (fetched_ends subject u).mono ?_ fun _ _ _ => trivial
  rintro after _ ⟨-, row, hf, hrow⟩
  exact (StoredRecord.id_of_toRecord hrow).trans (id_of_find? hf)

/-- Rows of another record may be changed as long as they stay its own. -/
theorem find?_map_of_other {rows : List StoredRecord} {change : StoredRecord → StoredRecord}
    (h : ∀ row, change row = row ∨ row.id ≠ id ∧ (change row).id ≠ id) :
    (rows.map change).find? (fun row => row.id = id) = rows.find? fun row => row.id = id := by
  induction rows with
  | nil => rfl
  | cons row rest ih =>
    rw [List.map_cons, List.find?_cons, List.find?_cons, ih]
    obtain hrow | ⟨hrow, hchanged⟩ := h row
    · rw [hrow]
    · rw [decide_eq_false hrow, decide_eq_false hchanged]

section Patches
variable (hne : subject ≠ id)
include hne

theorem Flow.swapIf_untouched {seen : Int} {next : Option StoredRecord}
    (hnext : ∀ row, next = some row → row.id = subject) (w : World) :
    Ends (swapIf subject seen (fun row => next.getD row) next.isSome) w
      (fun _ v => Untouched id w v) fun _ v => Untouched id w v := untouched_of_rests fun hw => by
  have same : Untouched id w w := refl_of _ w
  let isSeen (row : StoredRecord) : Bool :=
    decide (Stored.id row = subject) && decide (Versioned.version row = seen)
  unfold swapIf
  refine .step (letRivalWrite_none w hw.calm) ((Cell.bounded_ends (seen + 1) w).bind ?_ ?_)
  · rintro e v ⟨rfl, -⟩
    exact same
  rintro version v - ⟨rfl, -⟩
  refine .step (a := v.tables.records) (t := v) rfl (.guarded (fun _ => same) fun _ => ?_)
  refine .step (updateWhere_eq isSeen _ v) (.pure ?_)
  refine .of_rows (Nat.le_refl _) (find?_map_of_other fun row => ?_) rfl
  split
  · next hseen =>
    have hrow : row.id = subject := of_decide_eq_true (Bool.and_eq_true_iff.mp hseen).1
    refine .inr ⟨hrow ▸ hne, ?_⟩
    have hchanged : (next.getD row).id = subject := by
      cases next with
      | none => exact hrow
      | some row' => exact hnext row' rfl
    exact fun h => hne (hchanged.symm.trans h)
  · exact .inl rfl

theorem Record.patch_untouched (changes : Fields) (seen : Int) :
    Upholds (Untouched id) (patch subject changes seen) := fun w => by
  rw [patch_parts]
  have looked : Upholds (Untouched id) (prepare subject changes seen) := .looks (looks_prepare _ _ _)
  refine ((looked w).and (prepare_ends changes seen w)).bind (fun _ _ h => h.1) ?_
  rintro next v - ⟨hv, hnext⟩
  have swapped : Ends (swapIf subject seen (fun row => next.getD row) next.isSome) v
      (fun _ u => Untouched id w u) fun _ u => Untouched id w u.rolledBack :=
    (Flow.swapIf_untouched hne hnext v).mono (fun _ _ => trans_of (Untouched id) hv) fun _ u h =>
      trans_of (Untouched id) hv (trans_of (Untouched id) h (Undoes.undone u))
  unfold complete
  refine swapped.bind (fun _ _ h => h) fun done u _ hu => ?_
  have hundone : Untouched id w u.rolledBack := trans_of (Untouched id) hu (Undoes.undone u)
  refine .guarded (fun _ => hundone) fun _ => ?_
  have fetched : Upholds (Untouched id) (fetch subject) := .looks (.recordFetch anyCause subject)
  exact (fetched u).mono (fun _ _ => trans_of (Untouched id) hu) fun _ _ => trans_of (Untouched id) hu

end Patches

/-! ## Runs -/

def UntouchedIn (subject id : Uuid) (f g : Frame) : Prop :=
  f.context.record.id = subject → g.context.record.id = subject ∧ Untouched id f.world g.world

instance : IsPreorder Frame (UntouchedIn subject id) where
  refl f hf := ⟨hf, refl_of (Untouched id) f.world⟩
  trans _ _ _ h h' hf := by
    obtain ⟨hg, hrow⟩ := h hf
    obtain ⟨hk, hrow'⟩ := h' hg
    exact ⟨hk, trans_of (Untouched id) hrow hrow'⟩

instance : Frames (Untouched id) (UntouchedIn subject id) where
  undone f hf := ⟨hf, (Undoes.undone f.world : Untouched id f.world f.world.rolledBack)⟩
  aside _ _ h hcontext hf := ⟨hcontext ▸ hf, h⟩
  reframed f _ hc hf := ⟨hc.trans hf, refl_of (Untouched id) f.world⟩

def ReactsApart (subject id : Uuid) (react : Reaction) : Prop :=
  ∀ before after : Record, after.id = subject →
    Steady Run.rolledBack (UntouchedIn subject id) (react before after)

section Runs
variable (hne : subject ≠ id) {react : Reaction} (hreact : ReactsApart subject id react)
include hne hreact

theorem Action.applyPatch_untouched (changes : Fields) :
    Steady Run.rolledBack (UntouchedIn subject id) (applyPatch react changes) := fun f => by
  by_cases hf : f.context.record.id = subject
  · have patched : Upholds (Untouched id)
        (Record.patch f.context.record.id changes f.context.record.version) :=
      Record.patch_untouched (hf ▸ hne) _ _
    have same := Ends.lift (f := f)
      (Record.patched_id f.context.record.id changes f.context.record.version f.world)
    unfold applyPatch
    refine .step (context_eq f) (Ends.bind ((patched.lift f).and same) (fun _ _ h => h.1) ?_)
    rintro after g - ⟨hg, hafter, -⟩
    have hafter : after.id = subject := hafter.trans hf
    let k : Frame := { g with context := { g.context with record := after } }
    have hk : UntouchedIn subject id f k :=
      trans_of (UntouchedIn subject id) hg
        (Frames.reframed g k.context (hafter.trans (hg hf).1.symm))
    have rest : Steady Run.rolledBack (UntouchedIn subject id) (do
        if (← wiring).reactions then react f.context.record after) :=
      .bind (Upholds.lift (.looks .wiring)) fun _ => .ite (hreact _ _ hafter) (.pure _)
    exact .step (a := ()) (t := k) rfl
      ((rest k).mono (fun _ _ => trans_of _ hk) fun _ _ => trans_of _ hk)
  · exact Ends.any.mono (fun _ _ _ h => absurd h hf) fun _ _ _ h => absurd h hf

theorem Run.runActions_untouched (actions : List Action) (halts : Bool) {f : Frame}
    (hf : f.context.record.id = subject) :
    Ends (runActions react actions halts) f (fun _ g => Untouched id f.world g.world)
      fun _ g => Untouched id f.world g.world.rolledBack := by
  have opened {row : Run} {v : World} (h : Opens f.context f.world row v) : Untouched id f.world v := by
    rw [h.world]
    exact trans_of (Untouched id) (Lenient.numbered f.world .run) (.saveRuns _ _)
  have hperform (a : Action) : Steady Run.rolledBack (UntouchedIn subject id) (a.perform react) :=
    Action.steady_perform (Action.applyPatch_untouched hne hreact) a
  refine (runActions_steady hperform actions halts f).mono ?_ ?_
  · rintro _ g ⟨row, v, hrow, hg⟩
    exact trans_of (Untouched id) (opened hrow) (hg hf).2
  · rintro _ g (hg | ⟨row, v, hrow, hg⟩)
    · rw [hg]
      exact trans_of (Untouched id) (Lenient.numbered f.world .run) (Undoes.undone _)
    · exact trans_of (Untouched id) (opened hrow) (hg hf).2

namespace Workflow

theorem execute_untouched (x : Workflow) {record : Record} (hrecord : record.id = subject) (f : Frame) :
    Ends (x.execute react record) f (fun _ g => Untouched id f.world g.world)
      fun _ g => Untouched id f.world g.world.rolledBack := by
  obtain ⟨most, -, hcapped⟩ := x.cappedBudget_eq (x.considering record f.context)
  refine execute_upheld x record fun w => ?_
  rw [hcapped]
  exact Run.runActions_untouched hne hreact x.actions x.haltOnFailure hrecord

theorem executeNested_untouched (trigger : String) {record : Record} (hrecord : record.id = subject)
    (previous : Option Record) :
    Steady Run.rolledBack (UntouchedIn subject id) (executeNested react trigger record previous) := by
  unfold executeNested
  refine .bind (upholds_triggered _ _).lift fun rows => .bind steady_context fun c => ?_
  refine steady_executeEach (fun _ _ x _ r hr f => ?_) _ _
  refine .step (context_eq f) (nested_ends (.refl ?_)).ends
  exact (execute_untouched hne hreact x (hr.trans hrecord) ⟨f.world, f.context.child r trigger previous⟩).mono
    (fun _ _ h hf => ⟨hf, h⟩) fun _ _ h hf => ⟨hf, h⟩

theorem onWrite_reactsApart : ReactsApart subject id (onWrite react) := fun before _ hafter =>
  steady_onWrite (fun _ _ => executeNested_untouched hne hreact _ hafter)
    (fun f _ hc _ => ⟨hc.trans hafter, refl_of (Untouched id) f.world⟩) before

end Workflow

end Runs

namespace Workflow
variable (hne : subject ≠ id)
include hne

theorem reaction_reactsApart (levels : Nat) : ReactsApart subject id (reaction levels) := by
  induction levels with
  | zero => exact onWrite_reactsApart hne fun _ _ _ => .pure _
  | succ levels ih => exact onWrite_reactsApart hne ih

/-- A workflow that runs for one record leaves the others alone. -/
theorem executeIn_untouched (x : Workflow) (c : Context) {record : Record} (hrecord : record.id = subject) :
    Upholds (Untouched id) (x.executeIn c record) := fun w =>
  runIn_fst_ends (execute_untouched hne (reaction_reactsApart hne _) x hrecord ⟨w, c⟩)

end Workflow

end RecordFlow
