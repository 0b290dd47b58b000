import RecordFlow.Proofs.Store.Rows
import RecordFlow.Run.Execute

/-! # The row of a run

A run is opened, written to after every action, and closed. Each of these writes is saved at once,
and touches no row but the one of the run.
-/
namespace RecordFlow
open RecordFlow.Flow

def World.saveRuns (w : World) (rows : List Run) : World :=
  { w with
    tables := { w.tables with runs := rows }
    saved := { w.tables with runs := rows } }

def World.RunsFree (w : World) : Prop :=
  ∀ n, w.nextNumber .run ≤ n → ∀ r ∈ w.tables.runs, r.id ≠ TableName.run.rowId n

/-- The rows of runs are saved as are the tables that no run writes to, and the identifiers to come
are free. -/
structure World.Settled (w : World) : Prop where
  saved : w.saved.runs = w.tables.runs
  ledger : w.saved.ledger = w.tables.ledger
  free : w.RunsFree

theorem World.RunsFree.beside {writes : Bool} {w v : World} (hw : w.RunsFree)
    (h : Beside writes w v) : v.RunsFree := fun n hn r hr =>
  hw n (Nat.le_trans (h.numbers .run) hn) r (h.runs ▸ hr)

theorem World.Settled.beside {writes : Bool} {w v : World} (hw : w.Settled)
    (h : Beside writes w v) : v.Settled where
  saved := by rw [h.saved, h.runs, hw.saved]
  ledger := by rw [h.saved, h.ledger, hw.ledger]
  free := hw.free.beside h

theorem World.Settled.rollback {w : World} (hw : w.Settled) :
    World.Settled { w with tables := w.saved } where
  saved := rfl
  ledger := rfl
  free n hn r hr := hw.free n hn r (hw.saved ▸ hr)

/-- What stays as it is while the row of a run is written to: which run it is, what it is for, what
triggered it, and under which key. -/
structure RunHead where
  id : Uuid
  workflow : Option Uuid
  trigger : String
  record : Option Uuid
  isDry : Bool
  key : Option String

def Run.head (r : Run) : RunHead := ⟨r.id, r.workflow, r.trigger, r.record, r.isDry, r.key⟩

theorem Run.id_of_head {r s : Run} (h : r.head = s.head) : r.id = s.id := congrArg RunHead.id h

theorem Run.heads_drop {runs more : List Run} {new : List RunHead}
    (h : more.map Run.head = runs.map Run.head ++ new) :
    (more.drop runs.length).map Run.head = new := by
  rw [List.map_drop, h, ← List.length_map (f := Run.head), List.drop_left]

namespace Run

def changeRow (id : Uuid) (change : Run → Run) (rows : List Run) : List Run :=
  rows.map fun r => if r.id = id then change r else r

theorem changeRow_eq_self {id : Uuid} {change : Run → Run} {rows : List Run}
    (h : ∀ r ∈ rows, r.id ≠ id) : changeRow id change rows = rows := by
  induction rows with
  | nil => rfl
  | cons r rest ih =>
    have hr : r.id ≠ id := h r List.mem_cons_self
    have hrest := ih fun s hs => h s (List.mem_cons_of_mem r hs)
    rw [changeRow, List.map_cons, if_neg hr]
    exact congrArg (r :: ·) hrest

/-- Which runs there are does not change with a row. -/
theorem map_head_changeRow {id : Uuid} {change : Run → Run} (h : ∀ r, (change r).head = r.head)
    (rows : List Run) : (changeRow id change rows).map head = rows.map head := by
  rw [changeRow, List.map_map]
  refine List.map_congr_left fun r _ => ?_
  rw [Function.comp_apply]
  split
  · exact h r
  · rfl

/-- Only the row of the run changes where no other has its identifier. -/
theorem changeRow_split {change : Run → Run} {before after : List Run} {row : Run}
    (hbefore : ∀ r ∈ before, r.id ≠ row.id) (hafter : ∀ r ∈ after, r.id ≠ row.id) :
    changeRow row.id change (before ++ row :: after) = before ++ change row :: after := by
  have hb : changeRow row.id change before = before := changeRow_eq_self hbefore
  have ha : changeRow row.id change after = after := changeRow_eq_self hafter
  simp only [changeRow, List.map_append, List.map_cons, if_true] at hb ha ⊢
  rw [hb, ha]

theorem update_rows (id : Uuid) (change : Run → Run) (w : World) :
    ((Stored.rows w.tables).map fun r : Run => if decide (Stored.id r = id) then change r else r)
      = changeRow id change w.tables.runs := by
  simp only [decide_eq_true_eq]
  rfl

structure RowSaved (id : Uuid) (change : Run → Run) (w v : World) (notes : List AuditEntry) :
    Prop where
  rows : v.tables = (w.saveRuns (changeRow id change w.tables.runs)).tables
  saved : v.saved = v.tables
  numbers : v.numbers = w.numbers
  audit : v.journal.audit = w.journal.audit ++ notes

/-- A write that keeps the identifier of the run leaves the rows settled. -/
theorem RowSaved.settled {id : Uuid} {change : Run → Run} {w v : World} {notes : List AuditEntry}
    (h : RowSaved id change w v notes) (hchange : ∀ r, (change r).id = r.id) (hw : w.RunsFree) :
    v.Settled := by
  refine ⟨by rw [h.saved], by rw [h.saved], fun n hn r hr => ?_⟩
  have hn' : w.nextNumber .run ≤ n := by rw [World.nextNumber, ← h.numbers]; exact hn
  rw [h.rows] at hr
  obtain ⟨s, hs, rfl⟩ := List.mem_map.mp hr
  split
  · rw [hchange]
    exact hw n hn' s hs
  · exact hw n hn' s hs

structure Opens (c : Context) (w : World) (row : Run) (v : World) : Prop where
  head : row.head = ⟨TableName.run.rowId (w.nextNumber .run), c.workflow, c.trigger, some c.record.id,
    c.isDry, c.key⟩
  parent : row.parent = c.parent
  depth : row.depth = .int c.depth
  world : v = (w.useNumber .run).saveRuns (w.tables.runs ++ [row])

theorem Opens.id {c : Context} {w v : World} {row : Run} (h : Opens c w row v) :
    row.id = TableName.run.rowId (w.nextNumber .run) := congrArg RunHead.id h.head

theorem Opens.workflow {c : Context} {w v : World} {row : Run} (h : Opens c w row v) :
    row.workflow = c.workflow := congrArg RunHead.workflow h.head

theorem Opens.trigger {c : Context} {w v : World} {row : Run} (h : Opens c w row v) :
    row.trigger = c.trigger := congrArg RunHead.trigger h.head

theorem Opens.settled {c : Context} {w v : World} {row : Run} (h : Opens c w row v)
    (hw : w.RunsFree) : v.Settled := by
  have hid := h.id
  obtain ⟨-, -, -, rfl⟩ := h
  have hnext := w.nextNumber_used .run
  refine ⟨rfl, rfl, fun n hn r hr => ?_⟩
  have hn' : w.nextNumber .run + 1 ≤ n := hnext ▸ hn
  rcases List.mem_append.mp hr with hr | hr
  · exact hw n (by omega) r hr
  · rw [List.mem_singleton.mp hr, hid]
    intro heq
    have hnumber := TableName.rowId_injective .run heq
    omega

theorem openRun_ends (c : Context) (w : World) :
    Ends (openRun c) w (Opens c w) (fun e v => e.isLimit = false ∧ Beside false w v) := by
  have numbered : Incidental (Beside false) (modify fun w => w.useNumber .run) :=
    incidental_useNumber _
  have used : Beside false w (w.useNumber .run) := numbered.ok (a := ()) rfl
  unfold openRun
  refine .step rfl ?_
  refine .bind (insertTaken_ends _ _ w) (fun e v h => ⟨h.2, h.1 ▸ used⟩) ?_
  rintro row v - ⟨hrow, rfl⟩
  cases hrow
  exact .step rfl (.pure ⟨rfl, rfl, rfl, rfl⟩)

/-- Where a run cannot be opened, only a number is used up. -/
theorem openRun_refused (c : Context) (w : World) :
    Ends (openRun c) w (fun _ _ => True) fun _ v => v = w.useNumber .run := by
  unfold openRun
  exact .step rfl ((insertTaken_ends _ _ w).bind (fun _ _ h => h.1) fun _ _ _ _ =>
    .step rfl (.pure trivial))

/-- A run without a key is opened, if its depth has a place in its column. -/
theorem openRun_ok {c : Context} (hkey : c.key = none) (hdepth : Cell.fits c.depth = true)
    (w : World) : ∃ row v, openRun c w = .ok row v := by
  have hsized (r : Run) (hconsumed : r.consumed = .int 0) (hd : r.depth = .int c.depth) :
      sized r = .ok r := by
    have hfits : (Stored.wholes r).all Cell.fits = true := by
      simp only [Stored.wholes, hconsumed, hd, List.filterMap_cons, Value.int?, List.filterMap_nil,
        List.all_cons, hdepth, List.all_nil, Bool.and_true]
      decide
    rw [sized, if_pos hfits]
  have ends : Ends (openRun c) w (fun _ _ => True) fun _ _ => False := by
    unfold openRun
    refine .step rfl (Ends.bind (?_ : Ends _ _ (fun _ _ => True) fun _ _ => False)
      (fun _ _ h => h) fun _ _ _ _ => .step rfl (.pure trivial))
    unfold insertIf insertTaken
    refine .step rfl (.step rfl ?_)
    dsimp only [bind, Except.bind]
    rw [hsized _ rfl rfl]
    refine .step rfl (.step rfl ?_)
    rw [if_pos (by simp [Run.clashes, hkey])]
    exact .step rfl (.pure trivial)
  obtain ⟨row, v, hv, -⟩ := ends.exists_ok
  exact ⟨row, v, hv⟩

def IsOpen (id : Uuid) (w : World) : Prop := ∃ r ∈ w.tables.runs, r.id = id

theorem fetch_isOpen {id : Uuid} {w : World} (h : IsOpen id w) :
    ∃ r, fetch Run id w = .ok r w := by
  obtain ⟨r, hr, hid⟩ := h
  cases hf : (Stored.rows w.tables).find? (fun r : Run => Stored.id r = id) with
  | some found => exact ⟨found, bind_ok (find?_eq id w) _ |>.trans (by rw [hf]; rfl)⟩
  | none =>
    have hne := List.find?_eq_none.mp hf r hr
    exact absurd hid (of_decide_eq_false (Bool.eq_false_iff.mpr hne))

def checkpointed (executed : List ActionResult) (consumed : Int) (r : Run) : Run :=
  { r with executed := ActionResult.encodeAll executed, consumed := .int consumed }

theorem checkpoint_ends {id : Uuid} {w : World} (h : IsOpen id w) (executed : List ActionResult)
    (consumed : Int) :
    ∃ v, checkpoint id executed consumed w = .ok () v
      ∧ RowSaved id (checkpointed executed consumed) w v [] := by
  obtain ⟨r, hr⟩ := fetch_isOpen h
  let change := checkpointed executed consumed
  have ends : Ends (checkpoint id executed consumed) w (fun _ v => RowSaved id change w v [])
      fun _ _ => False := by
    unfold checkpoint
    refine .step hr (.step (update_eq id change w) ?_)
    exact .of_ok (a := ()) rfl ⟨update_rows id change w ▸ rfl, rfl, rfl, (List.append_nil _).symm⟩
  obtain ⟨_, v, hv, saved⟩ := ends.exists_ok
  exact ⟨v, hv, saved⟩

def closed (p : Progress) (consumed : Int) (t : Calendar.Instant) (r : Run) : Run :=
  { r with
    status := p.status.name
    error := p.error
    output := .obj p.output
    executed := ActionResult.encodeAll p.executed
    consumed := .int consumed
    finishedAt := some t }

end Run

structure AuditEntry.Closes (e : AuditEntry) (run : Uuid) (status : String) : Prop where
  type : e.entityType = "automation.run"
  run : e.entityId = run.text
  status : e.after.fields.getD "status" = .str status
  quiet : e.tellsLimit = false

namespace Run

theorem finish_ends {id : Uuid} {w : World} (h : IsOpen id w) (before : Int) (p : Progress)
    (c : Context) :
    ∃ v e, finish id before p c w = .ok () v ∧ e.Closes id p.status.name
      ∧ RowSaved id (closed p (c.budget.consumed - before) w.clock.wall) w v [e] := by
  obtain ⟨r, hr⟩ := fetch_isOpen h
  let change := closed p (c.budget.consumed - before) w.clock.wall
  let e : AuditEntry :=
    ⟨AuditEntry.actorName c.actor, "automation.run", id.text,
      (if c.isDry then "automation.run.dry_run" else "automation.run.finished"), .null, .obj [
        ("status", .str p.status.name),
        ("source", .str c.source),
        ("workflow_id", workflowText c.workflow),
        ("record_id", .uuid c.record.id),
        ("action_count", .nat p.executed.length),
        ("depth", .int c.depth)], w.ambient.correlation⟩
  have closes : e.Closes id p.status.name := by
    refine ⟨rfl, rfl, rfl, ?_⟩
    cases h : c.isDry <;> simp [e, AuditEntry.tellsLimit, h]
  have ends : Ends (finish id before p c) w (fun _ v => RowSaved id change w v [e])
      fun _ _ => False := by
    unfold finish
    refine .step hr (.step rfl (.step (update_eq id change w) (.step rfl (.step rfl (.step rfl ?_)))))
    split
    · exact .of_ok (a := ()) rfl ⟨update_rows id change w ▸ rfl, rfl, rfl, rfl⟩
    · exact .pure ⟨update_rows id change w ▸ rfl, rfl, rfl, rfl⟩
  obtain ⟨_, v, hv, saved⟩ := ends.exists_ok
  exact ⟨v, e, hv, closes, saved⟩

theorem tellLimit_ends (l : LimitReached) (c : Context) (w : World) :
    ∃ v e, tellLimit l c w = .ok () v ∧ e.tellsLimit = true ∧ v.tables = w.tables
      ∧ v.saved = w.saved ∧ v.numbers = w.numbers
      ∧ v.journal.audit = w.journal.audit ++ [e] :=
  ⟨_, _, rfl, by simp [AuditEntry.tellsLimit, LimitReached.encode, Value.fields, Fields.getD,
    Fields.get?, Value.text?], rfl, rfl, rfl, rfl⟩

end Run

end RecordFlow
