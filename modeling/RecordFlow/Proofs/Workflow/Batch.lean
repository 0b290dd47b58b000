import RecordFlow.Proofs.Run.Elsewhere
import RecordFlow.Proofs.Workflow.Scheduled

/-! # Batches of scheduled workflows

A scheduled workflow goes through the oldest records of its module, and no more of them than the settings
allow. What it does for one of them does not reach the others, so each record is at its turn as it was
listed, and what is counted are the records that match at their turn.
-/
namespace RecordFlow
open RecordFlow.Flow

/-! ## What is listed -/

def Tables.ofModule (t : Tables) (module : String) : List StoredRecord :=
  t.records.filter fun row => row.module = module

/-- All rows of a module by age, split in those that are listed and those that are left out. None is left
out as long as there is room. -/
structure Tables.Lists (t : Tables) (module : String) (limit : Int) (rows left : List StoredRecord) :
    Prop where
  perm : (rows ++ left).Perm (t.ofModule module)
  aged : (rows ++ left).Pairwise fun a b => a.createdAt ≤ b.createdAt
  bounded : 0 ≤ limit → (rows.length : Int) ≤ limit
  filled : left ≠ [] → (rows.length : Int) = limit

namespace Tables.Lists
variable {t : Tables} {module : String} {limit : Int} {rows left : List StoredRecord}

theorem whole (h : t.Lists module limit rows left)
    (hfits : limit < 0 ∨ ((t.ofModule module).length : Int) ≤ limit) : left = [] := by
  by_contra hleft
  have hall := h.perm.length_eq
  have hsome : 0 < left.length := List.length_pos_iff.mpr hleft
  have hfilled := h.filled hleft
  rw [List.length_append] at hall
  omega

theorem mem (h : t.Lists module limit rows left) {row : StoredRecord} (hrow : row ∈ rows) :
    row ∈ t.records :=
  List.mem_of_mem_filter (h.perm.mem_iff.mp (List.mem_append_left left hrow))

theorem nodup (h : t.Lists module limit rows left) (hdistinct : t.RecordsDistinct) :
    (rows.map StoredRecord.id).Nodup := by
  have hmodule : ((t.ofModule module).map StoredRecord.id).Nodup :=
    hdistinct.sublist (List.filter_sublist.map _)
  have hall := (h.perm.map StoredRecord.id).nodup_iff.mpr hmodule
  rw [List.map_append] at hall
  exact hall.of_append_left

end Tables.Lists

namespace Record
variable {w v : World} {module : String} {limit : Int} {records : List Record}

theorem limited_splits {α : Type} (limit : Int) (rows : List α) (w : World) :
    Ends (limited limit rows) w (fun kept v => v = w ∧ ∃ left, rows = kept ++ left
      ∧ (0 ≤ limit → (kept.length : Int) ≤ limit) ∧ (left ≠ [] → (kept.length : Int) = limit))
      fun _ v => v = w := by
  refine (limited_ends limit rows w).mono (fun kept v h => ⟨h.1, ?_⟩) fun _ _ h => h
  rw [h.2]
  by_cases hlimit : limit < 0
  · rw [if_pos hlimit]
    exact ⟨[], (List.append_nil rows).symm, fun h => absurd hlimit (Int.not_lt.mpr h), absurd rfl⟩
  · rw [if_neg hlimit]
    refine ⟨rows.drop limit.toNat, (List.take_append_drop _ rows).symm, fun _ => ?_, fun hleft => ?_⟩
    · have hle := List.length_take_le limit.toNat rows
      omega
    · have hlt : limit.toNat < rows.length := List.drop_eq_nil_iff.not.mp hleft |> Nat.lt_of_not_le
      rw [List.length_take_of_le (Nat.le_of_lt hlt)]
      omega

theorem mapM_toRecord_ends (rows : List StoredRecord) (w : World) :
    Ends (rows.mapM fun row => shaped row.toRecord) w
      (fun records v => v = w ∧ rows.map StoredRecord.toRecord = records.map Except.ok)
      fun _ v => v = w := by
  induction rows with
  | nil => exact .pure ⟨rfl, rfl⟩
  | cons row rest ih =>
    rw [List.mapM_cons]
    refine (shaped_ends row.toRecord w).bind (fun _ _ h => h) ?_
    rintro r v - ⟨rfl, hr⟩
    refine ih.bind (fun _ _ h => h) ?_
    rintro records v - ⟨rfl, hrest⟩
    exact .pure ⟨rfl, by rw [List.map_cons, List.map_cons, hr, hrest]⟩

theorem ids_of_read {rows : List StoredRecord}
    (h : rows.map StoredRecord.toRecord = records.map Except.ok) :
    rows.map StoredRecord.id = records.map Record.id := by
  induction rows generalizing records with
  | nil =>
    rw [List.map_eq_nil_iff.mp h.symm]
    rfl
  | cons row rest ih =>
    cases records with
    | nil => cases h
    | cons r records =>
      obtain ⟨hr, hrest⟩ := List.cons.inj h
      rw [List.map_cons, List.map_cons, ih hrest, StoredRecord.id_of_toRecord hr]

theorem row_of_read {rows : List StoredRecord} {r : Record}
    (h : rows.map StoredRecord.toRecord = records.map Except.ok) (hr : r ∈ records) :
    ∃ row ∈ rows, row.toRecord = .ok r := by
  have hmem : Except.ok r ∈ rows.map StoredRecord.toRecord := h ▸ List.mem_map_of_mem hr
  exact List.mem_map.mp hmem

/-- The records of a module are listed by age, as they are stored. -/
theorem list_ends (module : String) (limit : Int) (w : World) :
    Ends (list (.str module) limit) w
      (fun records v => v = w ∧ ∃ rows left, w.tables.Lists module limit rows left
        ∧ rows.map StoredRecord.toRecord = records.map Except.ok)
      fun _ v => v = w := by
  let isOlder (a b : StoredRecord) : Prop := a.createdAt ≤ b.createdAt
  have total : Std.Total isOlder := ⟨fun a b => Int.le_total a.createdAt.micros b.createdAt.micros⟩
  have transitive : IsTrans StoredRecord isOlder := ⟨fun _ _ _ => Int.le_trans⟩
  have hle (a b : StoredRecord) : decide (a.createdAt ≤ b.createdAt) = true ↔ isOlder a b :=
    decide_eq_true_iff
  have decides : DecidableRel isOlder := fun a b =>
    inferInstanceAs (Decidable (a.createdAt ≤ b.createdAt))
  have hmodule (row : StoredRecord) : decide (some row.module = some module) = decide (row.module = module) := by
    simp only [Option.some.injEq]
  unfold list
  refine .step (a := some module) (t := w) rfl (.step (a := w.tables.records) (t := w) rfl ?_)
  simp only [hmodule]
  refine (limited_splits limit _ w).bind (fun _ _ h => h) ?_
  rintro rows v - ⟨rfl, left, hsplit, hbounded, hfilled⟩
  refine (mapM_toRecord_ends rows v).mono ?_ fun _ _ h => h
  rintro records u ⟨rfl, hrecords⟩
  refine ⟨rfl, rows, left, ⟨?_, ?_, hbounded, hfilled⟩, hrecords⟩
  · rw [← hsplit]
    exact sorted_perm _ _
  · rw [← hsplit]
    exact pairwise_sorted hle _

end Record

namespace Workflow
variable {x : Workflow} {job : Uuid} {w v : World}

/-! ## Passes over records -/

def suits (x : Workflow) (r : Record) : Bool := Condition.holds? r.context none x.conditions

theorem Tally.matched_add (t : Tally) (s : RunStatus) : (t.add s).matched = t.matched + 1 := by
  cases s <;> rfl

theorem runForEach_append (x : Workflow) (job : Uuid) (before after : List Record) (t : Tally) :
    runForEach x job (before ++ after) t
      = runForEach x job before t >>= fun t => runForEach x job after t := by
  induction before generalizing t with
  | nil => rfl
  | cons r rest ih =>
    rw [List.cons_append, runForEach, runForEach]
    split
    · simp only [bind_assoc, ih]
    · exact ih t

/-- A pass counts the records that satisfy the conditions. -/
theorem runForEach_counts (records : List Record) (t : Tally) (w : World) :
    Yields (runForEach x job records t) w fun t' _ => t'.matched = t.matched + records.countP x.suits := by
  induction records generalizing t w with
  | nil => exact .pure rfl
  | cons r rest ih =>
    rw [runForEach, List.countP_cons]
    refine .ite (fun hsuits => ?_) fun hsuits => ?_
    · refine Yields.after fun c u => Yields.after fun answer u' => ?_
      refine (ih _ u').mono fun t' _ hcount => ?_
      have hone : (if x.suits r = true then 1 else 0) = 1 := if_pos hsuits
      rw [hcount, Tally.matched_add]
      omega
    · have hnone : (if x.suits r = true then 1 else 0) = 0 := if_neg hsuits
      exact (ih t w).mono fun t' _ hcount => by rw [hcount, hnone, Nat.add_zero]

/-- A pass leaves all records alone that it is not for. -/
theorem runForEach_untouched {id : Uuid} {records : List Record} (h : ∀ r ∈ records, r.id ≠ id)
    (t : Tally) : Upholds (Untouched id) (runForEach x job records t) :=
  upholds_runForEach (fun r hr _ => executeIn_untouched (h r hr) x _ rfl) t

/-- A record that is as it is stored is so still when its turn comes. -/
theorem runForEach_holds (hcalm : w.rivalWrites = 0) (hsaved : w.saved.records = w.tables.records)
    {before : List Record} {r : Record} (hr : w.tables.Holds r) (hothers : ∀ s ∈ before, s.id ≠ r.id)
    (t : Tally) : Yields (runForEach x job before t) w fun _ u => u.tables.Holds r := by
  have hrests : w.Rests r.id := ⟨hcalm, by rw [Tables.rowOf?, hsaved, Tables.rowOf?]⟩
  exact (runForEach_untouched hothers t w).yields.mono fun _ _ h => hr.of_rowOf? (h hrests).2

/-! ## Jobs for scheduled workflows -/

structure IsServed (payload : Value) (w : World) (row : StoredWorkflow) : Prop where
  named : (payload.demand "workflow_id" >>= Value.identifier) = .ok row.id
  stored : w.tables.workflows.find? (fun s => s.id = row.id) = some row
  enabled : row.isEnabled = true
  scheduled : row.trigger = Trigger.scheduled.name

/-- What a pass comes to that goes through with an answer: it has listed the oldest records of the module,
at its turn each of them is as it was listed, and the answer counts those that satisfy the conditions. -/
structure Reaches (x : Workflow) (job : Uuid) (w v : World) (answer : Fields)
    (rows left : List StoredRecord) (records : List Record) : Prop where
  listed : w.tables.Lists x.module w.settings.scheduledBatch rows left
  read : rows.map StoredRecord.toRecord = records.map Except.ok
  counted : answer.getD "matched" = .nat (records.countP x.suits)
  turns : ∀ before r after, records = before ++ r :: after → ∃ t u t',
    runForEach x job before ⟨0, 0, 0, 0⟩ w = .ok t u ∧ u.tables.Holds r
      ∧ runForEach x job (r :: after) t u = .ok t' v ∧ answer = t'.encode
  whole : w.settings.scheduledBatch < 0
      ∨ ((w.tables.ofModule x.module).length : Int) ≤ w.settings.scheduledBatch →
    rows.Perm (w.tables.ofModule x.module)

theorem reaches_of_pass (hcalm : w.rivalWrites = 0) (hdistinct : w.tables.RecordsDistinct)
    (hsaved : w.saved.records = w.tables.records) {rows left : List StoredRecord} {records : List Record}
    (hlisted : w.tables.Lists x.module w.settings.scheduledBatch rows left)
    (hread : rows.map StoredRecord.toRecord = records.map Except.ok) {t : Tally}
    (h : runForEach x job records ⟨0, 0, 0, 0⟩ w = .ok t v) :
    Reaches x job w v t.encode rows left records where
  listed := hlisted
  read := hread
  counted := by
    have hcount := (runForEach_counts records ⟨0, 0, 0, 0⟩ w).ok_of h
    change Value.nat t.matched = _
    rw [hcount, Nat.zero_add]
  turns before r after hsplit := by
    have hids := hlisted.nodup hdistinct
    rw [Record.ids_of_read hread, hsplit, List.map_append, List.nodup_append] at hids
    have hothers : ∀ s ∈ before, s.id ≠ r.id := fun s hs =>
      hids.2.2 s.id (List.mem_map_of_mem hs) r.id List.mem_cons_self
    have hr : w.tables.Holds r := by
      obtain ⟨row, hrow, hstored⟩ := Record.row_of_read hread
        (hsplit ▸ List.mem_append_right before List.mem_cons_self)
      exact .of_mem hdistinct (hlisted.mem hrow) hstored
    rw [hsplit, runForEach_append] at h
    cases hbefore : runForEach x job before ⟨0, 0, 0, 0⟩ w with
    | error e u =>
      rw [bind_error hbefore] at h
      cases h
    | ok t' u =>
      rw [bind_ok hbefore] at h
      exact ⟨t', u, t, rfl, (runForEach_holds hcalm hsaved hr hothers _).ok_of hbefore, h, rfl⟩
  whole hfits := by
    have hnone := hlisted.whole hfits
    have hperm := hlisted.perm
    rwa [hnone, List.append_nil] at hperm

/-- A job for a scheduled workflow that is completed has reached all records that it has listed, and no
matching record is passed over if the module has no more records than may be listed. -/
theorem runScheduled_reaches {payload : Value} {row : StoredWorkflow} {answer : Fields}
    (hserved : IsServed payload w row) (hcalm : w.rivalWrites = 0)
    (hdistinct : w.tables.RecordsDistinct) (hsaved : w.saved.records = w.tables.records)
    (h : runScheduled job payload w = .ok answer v) :
    ∃ x rows left records, row.definition = .valid x
      ∧ Reaches x job w v answer rows left records := by
  have reaches : Yields (runScheduled job payload) w fun answer v => ∃ x rows left records,
      row.definition = .valid x ∧ Reaches x job w v answer rows left records := by
    have hstored : (Stored.rows w.tables).find? (fun s : StoredWorkflow => Stored.id s = row.id)
        = some row := hserved.stored
    unfold runScheduled
    refine .step (a := row.id) (t := w) (by rw [hserved.named]; rfl) (.step (find?_eq row.id w) ?_)
    rw [hstored]
    dsimp only
    generalize row.definition = defined
    refine .ite (fun hno => ?_) fun _ => ?_
    · simp [hserved.enabled, hserved.scheduled] at hno
    refine (valid_ends defined w).yields.bind ?_
    rintro x w ⟨rfl, hx⟩
    refine .step (a := w.settings) (t := w) rfl ?_
    refine (Record.list_ends x.module w.settings.scheduledBatch w).yields.bind ?_
    rintro records w ⟨rfl, rows, left, hlisted, hread⟩
    refine .of_ok fun answer v hpass => ?_
    cases hrun : runForEach x job records ⟨0, 0, 0, 0⟩ w with
    | error e u =>
      rw [bind_error hrun] at hpass
      cases hpass
    | ok t u =>
      rw [bind_ok hrun] at hpass
      cases hpass
      exact ⟨x, rows, left, records, hx, reaches_of_pass hcalm hdistinct hsaved hlisted hread hrun⟩
  exact reaches.ok_of h

def staleDeal (n : Nat) : StoredRecord where
  id := TableName.record.rowId n
  module := "deals"
  ownerId := none
  stage := some "stale"
  title := none
  isOpen := true
  data := .obj []
  createdBy := none
  version := 1
  createdAt := ⟨n⟩

def noteStale : StoredWorkflow where
  id := TableName.workflow.rowId 1
  name := "stale"
  description := none
  module := "deals"
  isEnabled := true
  trigger := Trigger.scheduled.name
  config := .obj []
  conditions := .obj [("field", .str "stage"), ("op", .str "eq"), ("value", .str "stale")]
  actions := .list [.obj [("type", .str "add_note"), ("body", .str "still stale")]]
  haltOnFailure := true
  runCountCap := .null
  cooldownSeconds := .null
  priority := .int 0
  lastScheduledAt := none
  createdBy := none
  createdAt := ⟨0⟩

def staleDeals (limit : Int) : World :=
  let tables := { Tables.empty with
    records := [staleDeal 1, staleDeal 2]
    workflows := [noteStale] }
  { World.initial ⟨⟨0⟩, 0⟩ { Settings.standard with scheduledBatch := limit } .complete [] with
    tables := tables
    saved := tables }

def notingStale : Value := .obj [("workflow_id", .uuid noteStale.id)]

theorem staleDeals_isServed (limit : Int) : IsServed notingStale (staleDeals limit) noteStale where
  named := by
    have hread : (notingStale.demand "workflow_id" >>= Value.identifier).toOption = some noteStale.id := by
      decide +kernel
    cases h : (notingStale.demand "workflow_id" >>= Value.identifier) with
    | ok id =>
      rw [h] at hread
      exact congrArg Except.ok (Option.some.inj hread)
    | error e =>
      rw [h] at hread
      cases hread
  stored := by simp [staleDeals]
  enabled := rfl
  scheduled := rfl

theorem runScheduled_reaches_deals : ∃ answer v x rows left records,
    IsServed notingStale (staleDeals 200) noteStale ∧ (staleDeals 200).rivalWrites = 0
      ∧ (staleDeals 200).tables.RecordsDistinct
      ∧ (staleDeals 200).saved.records = (staleDeals 200).tables.records
      ∧ runScheduled ⟨9⟩ notingStale (staleDeals 200) = .ok answer v
      ∧ (answer.getD "matched").int? = some 2 ∧ noteStale.definition = .valid x
      ∧ Reaches x ⟨9⟩ (staleDeals 200) v answer rows left records := by
  have distinct : (staleDeals 200).tables.RecordsDistinct := by
    unfold Tables.RecordsDistinct
    decide
  have ran : passes (runScheduled ⟨9⟩ notingStale) (staleDeals 200)
      (fun answer _ => (answer.getD "matched").int? = some 2) = true := by
    decide +kernel
  obtain ⟨answer, v, hrun, hmatched⟩ := (Ends.of_passes ran).exists_ok
  obtain ⟨x, rows, left, records, hx, hreaches⟩ :=
    runScheduled_reaches (staleDeals_isServed 200) rfl distinct rfl hrun
  exact ⟨answer, v, x, rows, left, records, staleDeals_isServed 200, rfl, distinct, rfl, hrun,
    of_decide_eq_true hmatched, hx, hreaches⟩

def suiting (row : StoredWorkflow) (t : Tables) : Nat :=
  match row.definition with
  | .valid x => (t.ofModule x.module).countP fun r =>
    match r.toRecord with
    | .ok r => x.suits r
    | .error _ => false
  | .invalid _ => 0

/-- Where one record may be listed, the other is left out, though it satisfies the conditions as well. -/
theorem runScheduled_passes_over : IsServed notingStale (staleDeals 1) noteStale
    ∧ ∃ answer v, runScheduled ⟨9⟩ notingStale (staleDeals 1) = .ok answer v
      ∧ (answer.getD "matched").int? = some 1
      ∧ suiting noteStale (staleDeals 1).tables = 2 ∧ suiting noteStale v.tables = 2 := by
  have ran : passes (runScheduled ⟨9⟩ notingStale) (staleDeals 1) (fun answer v =>
      (answer.getD "matched").int? = some 1 && suiting noteStale (staleDeals 1).tables = 2
        && suiting noteStale v.tables = 2) = true := by
    decide +kernel
  obtain ⟨answer, v, hrun, hend⟩ := (Ends.of_passes ran).exists_ok
  simp only [Bool.and_eq_true, decide_eq_true_eq] at hend
  exact ⟨staleDeals_isServed 1, answer, v, hrun, hend.1.1, hend.1.2, hend.2⟩

end Workflow

end RecordFlow
