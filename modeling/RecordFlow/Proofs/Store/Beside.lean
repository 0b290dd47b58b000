import RecordFlow.Proofs.Outcome
import RecordFlow.Proofs.Store.Numbered
import RecordFlow.Record.Store

/-! # What happens beside the runs

Most of what an action does leaves alone the rows of runs, the tables that no run writes to, and
what was saved; it fails for reasons of its own, never for want of budget. Such a part is called
incidental. Some incidental parts write to records, the others leave these alone as well. The same
parts keep any other relation that does not mind the tables that they write to.
-/
namespace RecordFlow

structure Ledger where
  workflows : List StoredWorkflow
  blueprints : List StoredBlueprint
  stageChanges : List StageChange
  processes : List ApprovalProcess
  approvals : List Approval
  entries : List ApprovalEntry

def Tables.ledger (t : Tables) : Ledger :=
  ⟨t.workflows, t.blueprints, t.stageChanges, t.processes, t.approvals, t.approvalEntries⟩

def Failure.isLimit : Failure → Bool
  | .limit _ => true
  | _ => false

theorem anyCause (e : Failure) (_ : e.isLimit = false) : True := trivial

theorem passed (e : Failure) (h : e.isLimit = false) : e.isLimit = false := h

def AuditEntry.tellsLimit (e : AuditEntry) : Bool :=
  e.action = "workflow.blocked"
    && (e.after.fields.getD "reason").text? = some LimitReached.reason

def AuditEntry.tellsRun (e : AuditEntry) : Bool := e.entityType = "automation.run"

structure AuditEntry.Aside (e : AuditEntry) : Prop where
  limit : e.tellsLimit = false
  run : e.tellsRun = false

/-- The world after something that happened beside the runs; `writes` tells whether it may have
written to records. -/
structure Beside (writes : Bool) (w v : World) : Prop where
  saved : v.saved = w.saved
  runs : v.tables.runs = w.tables.runs
  ledger : v.tables.ledger = w.tables.ledger
  records : writes = false → v.tables.records = w.tables.records
  numbers : ∀ t, w.nextNumber t ≤ v.nextNumber t
  rivals : v.rivalWrites ≤ w.rivalWrites
  notes : ∃ more, v.journal.audit = w.journal.audit ++ more ∧ ∀ e ∈ more, e.tellsLimit = false

namespace Beside
variable {writes : Bool} {w v u : World}

theorem refl (w : World) : Beside writes w w :=
  ⟨rfl, rfl, rfl, fun _ => rfl, fun _ => Nat.le_refl _, Nat.le_refl _, [], by simp, by simp⟩

theorem trans (h : Beside writes w v) (h' : Beside writes v u) : Beside writes w u where
  saved := h'.saved.trans h.saved
  runs := h'.runs.trans h.runs
  ledger := h'.ledger.trans h.ledger
  records hw := (h'.records hw).trans (h.records hw)
  numbers t := Nat.le_trans (h.numbers t) (h'.numbers t)
  rivals := Nat.le_trans h'.rivals h.rivals
  notes := by
    obtain ⟨more, haudit, hmore⟩ := h.notes
    obtain ⟨more', haudit', hmore'⟩ := h'.notes
    refine ⟨more ++ more', by rw [haudit', haudit, List.append_assoc], fun e he => ?_⟩
    rcases List.mem_append.mp he with he | he
    · exact hmore e he
    · exact hmore' e he

instance : IsPreorder World (Beside writes) where
  refl := refl
  trans _ _ _ := trans

theorem writing (h : Beside writes w v) : Beside true w v :=
  { h with records := nofun }

end Beside

/-! ## Relations that do not mind -/

/-- What is outside the tables has changed, but not the clock, the settings and the wiring. No event is
taken back, and no more rivals are to come. -/
structure Outside (w v : World) : Prop where
  tables : v.tables = w.tables
  saved : v.saved = w.saved
  numbers : v.numbers = w.numbers
  rivals : v.rivalWrites ≤ w.rivalWrites
  clock : v.clock = w.clock
  settings : v.settings = w.settings
  wiring : v.wiring = w.wiring
  events : w.journal.events <+: v.journal.events

/-- A relation that minds neither which numbers are used up nor what goes on outside the tables, but
for the notes that tell of runs and their limits. -/
class Lenient (R : World → World → Prop) : Prop extends IsPreorder World R where
  numbered : ∀ (w : World) (t : TableName), R w (w.useNumber t)
  unstored : ∀ w v : World, Outside w v →
    (∃ more, v.journal.audit = w.journal.audit ++ more ∧ ∀ e ∈ more, e.Aside) → R w v

theorem Outside.unnoted {R : World → World → Prop} [Lenient R] {w v : World} (h : Outside w v)
    (haudit : v.journal.audit = w.journal.audit) : R w v :=
  Lenient.unstored w v h ⟨[], by rw [haudit, List.append_nil], by simp⟩

class Indifferent (R : World → World → Prop) (ρ : Type) [Stored ρ] : Prop where
  setRows : ∀ (rows : List ρ) (w : World), R w { w with tables := Stored.setRows rows w.tables }

section Instances
variable {writes : Bool}

instance : Lenient (Beside writes) where
  numbered w t :=
    ⟨rfl, rfl, rfl, fun _ => rfl, w.nextNumber_le_useNumber t, Nat.le_refl _, [],
      by simp [World.useNumber], by simp⟩
  unstored w v h hnotes :=
    ⟨h.saved, by rw [h.tables], by rw [h.tables], fun _ => by rw [h.tables],
      fun t => Nat.le_of_eq (World.nextNumber_congr h.numbers t).symm, h.rivals,
      hnotes.imp fun _ h => h.imp_right fun haside e he => (haside e he).limit⟩

theorem Beside.of_tables {w : World} {t : Tables} (hruns : t.runs = w.tables.runs)
    (hledger : t.ledger = w.tables.ledger) (hrecords : writes = false → t.records = w.tables.records) :
    Beside writes w { w with tables := t } :=
  ⟨rfl, hruns, hledger, hrecords, fun _ => Nat.le_refl _, Nat.le_refl _, [], by simp, by simp⟩

instance : Indifferent (Beside true) StoredRecord := ⟨fun _ _ => .of_tables rfl rfl nofun⟩
instance : Indifferent (Beside writes) Child := ⟨fun _ _ => .of_tables rfl rfl fun _ => rfl⟩
instance : Indifferent (Beside writes) Cooldown := ⟨fun _ _ => .of_tables rfl rfl fun _ => rfl⟩
instance : Indifferent (Beside writes) AssignmentRule := ⟨fun _ _ => .of_tables rfl rfl fun _ => rfl⟩
instance : Indifferent (Beside writes) Cadence := ⟨fun _ _ => .of_tables rfl rfl fun _ => rfl⟩
instance : Indifferent (Beside writes) Enrollment := ⟨fun _ _ => .of_tables rfl rfl fun _ => rfl⟩
instance : Indifferent (Beside writes) Job := ⟨fun _ _ => .of_tables rfl rfl fun _ => rfl⟩
instance : Indifferent (Beside writes) Message := ⟨fun _ _ => .of_tables rfl rfl fun _ => rfl⟩

end Instances

structure InContext (R : World → World → Prop) (f g : Frame) : Prop where
  world : R f.world g.world
  context : g.context = f.context

instance (R : World → World → Prop) [IsPreorder World R] : IsPreorder Frame (InContext R) where
  refl f := ⟨refl_of R f.world, rfl⟩
  trans _ _ _ h h' := ⟨trans_of R h.world h'.world, h'.context.trans h.context⟩

/-- An operation that keeps a relation, and never fails for want of budget. -/
abbrev Incidental {α : Type} (R : World → World → Prop) (part : Flow α) : Prop :=
  Keeps (·.isLimit = false) R part

abbrev IncidentalIn {α : Type} (R : World → World → Prop) (part : Scoped α) : Prop :=
  Keeps (·.isLimit = false) (InContext R) part

namespace Keeps
variable {α : Type} {fault : Failure → Prop} {R : World → World → Prop} [IsPreorder World R]

/-! ## Parts that only look -/

theorem moment : Keeps fault R Flow.moment := .read fun _ => ⟨_, rfl⟩
theorem now : Keeps fault R Flow.now := .read fun _ => ⟨_, rfl⟩
theorem settings : Keeps fault R Flow.settings := .read fun _ => ⟨_, rfl⟩
theorem wiring : Keeps fault R Flow.wiring := .read fun _ => ⟨_, rfl⟩
theorem ambient : Keeps fault R Flow.ambient := .read fun _ => ⟨_, rfl⟩

theorem all (ρ : Type) [Stored ρ] : Keeps fault R (Flow.all ρ) := .read fun _ => ⟨_, rfl⟩

theorem find? (ρ : Type) [Stored ρ] (id : Uuid) : Keeps fault R (Flow.find? ρ id) :=
  .read fun _ => ⟨_, rfl⟩

variable (hfault : ∀ e : Failure, e.isLimit = false → fault e)
include hfault

theorem fetch (ρ : Type) [Stored ρ] (id : Uuid) : Keeps fault R (Flow.fetch ρ id) := by
  unfold Flow.fetch
  refine .bind (.find? ρ id) fun found => ?_
  cases found with
  | some r => exact .pure r
  | none => exact .throw (hfault _ rfl)

theorem taken (v : Except CellFault α) : Keeps fault R (Flow.taken v) := by
  cases v with
  | ok a => exact .pure a
  | error cause => exact .throw (hfault _ (by cases cause <;> rfl))

theorem readable (v : Except BadNumeral α) : Keeps fault R (Flow.readable v) := by
  cases v with
  | ok a => exact .pure a
  | error cause => exact .throw (hfault _ rfl)

theorem shaped (v : Except ShapeFault α) : Keeps fault R (Flow.shaped v) := by
  cases v with
  | ok a => exact .pure a
  | error cause => exact .throw (hfault _ rfl)

theorem inTime (v : Except Calendar.OutOfRange α) : Keeps fault R (Flow.inTime v) := by
  cases v with
  | ok a => exact .pure a
  | error cause => exact .throw (hfault _ rfl)

theorem valid (v : Schema.Checked α) : Keeps fault R (Flow.valid v) := by
  cases v with
  | valid a => exact .pure a
  | invalid issues => exact .throw (hfault _ rfl)

theorem stepAt (steps : List α) (position : Int) : Keeps fault R (Flow.stepAt steps position) := by
  unfold Flow.stepAt
  cases itemAt? steps position with
  | some step => exact .pure step
  | none => exact .throw (hfault _ rfl)

theorem orThrow (v : Except Failure α) (h : ∀ e, v = .error e → e.isLimit = false) :
    Keeps fault R (Flow.orThrow v) := by
  cases v with
  | ok a => exact .pure a
  | error e => exact .throw (hfault e (h e rfl))

theorem recordGet? (id : Uuid) : Keeps fault R (Record.get? id) := by
  unfold Record.get?
  refine .bind (.find? StoredRecord id) fun found => ?_
  cases found with
  | some row => exact .map some (.shaped hfault _)
  | none => exact .pure none

theorem recordFetch (id : Uuid) : Keeps fault R (Record.fetch id) :=
  .bind (.fetch hfault StoredRecord id) fun _ => .shaped hfault _

end Keeps

/-! ## Parts that write -/

variable {R : World → World → Prop} [Lenient R]

section Rows
variable {ρ : Type} [Stored ρ]

theorem incidental_useNumber (t : TableName) : Incidental R (modify fun w => w.useNumber t) :=
  .modify fun w => Lenient.numbered w t

variable [Indifferent R ρ]

omit [Lenient R] in
theorem incidental_setAll (rows : List ρ) : Incidental R (Flow.setAll rows) :=
  .modify fun w => Indifferent.setRows rows w

theorem incidental_insertTaken (build : Uuid → Except CellFault ρ) (fits : List ρ → ρ → Bool) :
    Incidental R (Flow.insertTaken build fits) := by
  unfold Flow.insertTaken
  refine .bind .get fun w => .bind (incidental_useNumber _) fun _ => ?_
  refine .bind (.taken (fun _ h => h) _) fun row => .bind (.all ρ) fun rows => ?_
  exact .ite (.bind (incidental_setAll _) fun _ => .pure _) (.throw rfl)

theorem incidental_insertIf (build : Uuid → ρ) (fits : List ρ → ρ → Bool) :
    Incidental R (Flow.insertIf build fits) :=
  incidental_insertTaken _ fits

theorem incidental_insert (build : Uuid → ρ) : Incidental R (Flow.insert build) :=
  incidental_insertIf build _

theorem incidental_updateWhere (test : ρ → Bool) (change : ρ → ρ) :
    Incidental R (Flow.updateWhere test change) :=
  .bind (.all ρ) fun _ => .bind (incidental_setAll _) fun _ => .pure _

theorem incidental_update (id : Uuid) (change : ρ → ρ) :
    Incidental R (Flow.update id change) :=
  .bind (incidental_updateWhere _ _) fun _ => .pure _

theorem incidental_store (row : ρ) : Incidental R (Flow.store row) :=
  .bind (.taken (fun _ h => h) _) fun row => incidental_update (Stored.id row) _

end Rows

section Versions
variable {ρ : Type} [Versioned ρ]

def World.overtaken (ρ : Type) [Versioned ρ] (w : World) : World := { w with
  rivalWrites := w.rivalWrites - 1
  tables := Stored.setRows
    ((Stored.rows w.tables).map fun r : ρ => Versioned.setVersion (Versioned.version r + 1) r)
    w.tables }

theorem letRivalWrite_eq (w : World) (hrivals : w.rivalWrites ≠ 0) :
    Flow.letRivalWrite ρ w = .ok () (w.overtaken ρ) := by
  unfold Flow.letRivalWrite
  refine (bind_ok (x := get) (a := w) (t := w) rfl _).trans ?_
  rw [if_pos hrivals]
  rfl

theorem letRivalWrite_none (w : World) (hrivals : w.rivalWrites = 0) :
    Flow.letRivalWrite ρ w = .ok () w := by
  unfold Flow.letRivalWrite
  refine (bind_ok (x := get) (a := w) (t := w) rfl _).trans ?_
  rw [if_neg (not_not.mpr hrivals)]
  rfl

/-- Where the change fits, nothing is asked of the rows beforehand. -/
theorem swap_eq (id : Uuid) (seen : Int) (change : ρ → ρ) :
    Flow.swap id seen change = (do
      Flow.letRivalWrite ρ
      let next ← Flow.taken (Cell.bounded (seen + 1))
      let n ← Flow.updateWhere (fun r : ρ => Stored.id r = id && Versioned.version r = seen)
        fun r => Versioned.setVersion next (change r)
      return n = 1) := rfl

variable [Indifferent R ρ]

theorem incidental_letRivalWrite : Incidental R (Flow.letRivalWrite ρ) := fun w => by
  by_cases hrivals : w.rivalWrites = 0
  · exact .of_ok (letRivalWrite_none w hrivals) (refl_of R w)
  · have counted : R w { w with rivalWrites := w.rivalWrites - 1 } :=
      Outside.unnoted ⟨rfl, rfl, rfl, Nat.sub_le _ 1, rfl, rfl, rfl, List.prefix_rfl⟩ rfl
    exact .of_ok (letRivalWrite_eq w hrivals)
      (trans_of R counted (Indifferent.setRows _ { w with rivalWrites := w.rivalWrites - 1 }))

theorem incidental_swapIf (id : Uuid) (seen : Int) (change : ρ → ρ) (fits : Bool) :
    Incidental R (Flow.swapIf id seen change fits) :=
  .bind incidental_letRivalWrite fun _ => .bind (.taken (fun _ h => h) _) fun _ =>
    .bind (.all ρ) fun _ => .guarded rfl (.bind (incidental_updateWhere _ _) fun _ => .pure _)

theorem incidental_swap (id : Uuid) (seen : Int) (change : ρ → ρ) :
    Incidental R (Flow.swap id seen change) :=
  incidental_swapIf id seen change true

end Versions

section Journal

theorem incidental_count (s : Sample) : Incidental R (Flow.count s) := .modify fun _ =>
  Outside.unnoted ⟨rfl, rfl, rfl, Nat.le_refl _, rfl, rfl, rfl, List.prefix_rfl⟩ rfl

theorem incidental_announce (eventType : String) (actor : Value) (payload : Fields) :
    Incidental R (Flow.announce eventType actor payload) := .modify fun _ =>
  Outside.unnoted ⟨rfl, rfl, rfl, Nat.le_refl _, rfl, rfl, rfl, List.prefix_append _ _⟩ rfl

/-- A note is incidental unless it tells of a run or a limit. -/
theorem incidental_note {actor : Value} {entityType entityId action : String}
    {before after : Value} (hrun : entityType ≠ "automation.run")
    (h : action ≠ "workflow.blocked" ∨
      (after.fields.getD "reason").text? ≠ some LimitReached.reason) :
    Incidental R (Flow.note actor entityType entityId action before after) := .modify fun _ => by
  refine Lenient.unstored _ _ ⟨rfl, rfl, rfl, Nat.le_refl _, rfl, rfl, rfl, List.prefix_rfl⟩
    ⟨_, rfl, fun e he => ?_⟩
  rw [List.mem_singleton.mp he]
  refine ⟨?_, decide_eq_false hrun⟩
  rw [AuditEntry.tellsLimit, Bool.and_eq_false_iff]
  simpa using h

end Journal

/-! ## Records and their children -/

theorem incidental_patch [Indifferent R StoredRecord] (id : Uuid) (changes : Fields) (seen : Int) :
    Incidental R (Record.patch id changes seen) := by
  unfold Record.patch
  refine .bind (.fetch passed StoredRecord id) fun row => .bind (.shaped passed _) fun r => ?_
  refine .guarded rfl (.bind (.taken passed _) fun next => ?_)
  exact .bind (incidental_swapIf id seen _ _) fun swapped => .guarded rfl (.recordFetch passed id)

theorem incidental_createChild [Indifferent R Child] (record : Uuid) (d : Record.ChildDraft) :
    Incidental R (Record.createChild record d) :=
  incidental_insertTaken _ _

end RecordFlow
