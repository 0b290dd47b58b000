import RecordFlow.Proofs.Record.Kept

/-! # What a patch comes to

A patch reads the record and then writes it. It leaves the record with the changes behind if that
was seen as it is stored and takes the changes; otherwise it fails and leaves everything as it was.
-/
namespace RecordFlow
variable {r s : Record} {changes kept : Fields}

namespace Tables

/-- Where records have identifiers of their own, what is stored under one is any row with it. -/
theorem find?_of_mem {t : Tables} (hdistinct : t.RecordsDistinct) {row : StoredRecord}
    (h : row ∈ t.records) : t.records.find? (fun x => x.id = row.id) = some row := by
  cases hf : t.records.find? fun x => x.id = row.id with
  | none => simpa using List.find?_eq_none.mp hf row h
  | some x =>
    have hid : x.id = row.id := by simpa using List.find?_some hf
    rw [List.inj_on_of_nodup_map hdistinct (List.mem_of_find?_eq_some hf) h hid]

def Shows (t : Tables) (seen : Record) : Prop :=
  ∀ r, t.Holds r → r.id = seen.id → r.version = seen.version → r = seen

theorem Holds.of_mem {t : Tables} (hdistinct : t.RecordsDistinct) {row : StoredRecord}
    (h : row ∈ t.records) (hr : row.toRecord = .ok r) : t.Holds r := by
  refine ⟨row, ?_, hr⟩
  rw [StoredRecord.id_of_toRecord hr]
  exact find?_of_mem hdistinct h

theorem Holds.shows {t : Tables} (h : t.Holds r) : t.Shows r := by
  rintro s ⟨row, hf, hs⟩ hid -
  obtain ⟨row', hf', hr⟩ := h
  rw [hid, hf'] at hf
  obtain rfl := Option.some.inj hf
  exact Except.ok.inj (hs.symm.trans hr)

end Tables

namespace Record

/-- The record after changes, as they are kept; nothing if a value is not taken, or if there is no
place for the next version. -/
def patched? (r : Record) (changes : Fields) : Option Record :=
  if Cell.fits (r.version + 1) then
    changes.kept?.map fun kept => { r.merged kept with version := r.version + 1 }
  else none

theorem patched?_of_not_fits (h : Cell.fits (r.version + 1) = false) (changes : Fields) :
    r.patched? changes = none := by
  rw [patched?, if_neg (by simp [h])]

theorem patched?_of_not_written {row : StoredRecord} (hkeys : (Fields.keys changes).Nodup)
    (hr : row.toRecord = .ok r) (h : ∀ next, row.write r.fields changes ≠ .ok (some next)) :
    r.patched? changes = none := by
  unfold patched?
  split
  · cases hkept : changes.kept? with
    | none => rfl
    | some kept =>
      obtain ⟨next, hwrite, -⟩ := StoredRecord.toRecord_write_kept hkeys hr hkept
      exact absurd hwrite (h next)
  · rfl

def Rewritten (after : Record) (w v : World) : Prop :=
  ∃ next : StoredRecord, next.toRecord = .ok after
    ∧ v = w.setRows (w.tables.records.map (overwrite next))

namespace Rewritten
variable {w v : World} {after : Record}

theorem distinct (h : after.Rewritten w v) (hw : w.tables.RecordsDistinct) :
    v.tables.RecordsDistinct := by
  obtain ⟨next, -, rfl⟩ := h
  have hids : (w.tables.records.map (overwrite next)).map StoredRecord.id
      = w.tables.records.map StoredRecord.id := ids_map fun x _ => id_overwrite next x
  exact (congrArg List.Nodup hids).mpr hw

theorem holds (h : after.Rewritten w v) (hw : w.tables.RecordsDistinct) (hr : w.tables.Holds r)
    (hid : after.id = r.id) : v.tables.Holds after := by
  have hdistinct := h.distinct hw
  obtain ⟨next, hnext, rfl⟩ := h
  obtain ⟨row, hf, hrow⟩ := hr
  have hsame : row.id = next.id := by
    rw [← StoredRecord.id_of_toRecord hrow, ← hid, StoredRecord.id_of_toRecord hnext]
  exact .of_mem hdistinct (mem_overwrite (List.mem_of_find?_eq_some hf) hsame) hnext

theorem others (h : after.Rewritten w v) : v.tables.records.filter (fun x => x.id ≠ after.id)
    = w.tables.records.filter fun x => x.id ≠ after.id := by
  obtain ⟨next, hnext, rfl⟩ := h
  rw [StoredRecord.id_of_toRecord hnext]
  exact filter_overwrite next w.tables.records

end Rewritten

/-- How a patch of a record that was seen is refused: it is not the stored one any more, or else
that does not take the changes. -/
inductive Refuses (r s : Record) (changes : Fields) : Failure → Prop
  | stale (h : s.version ≠ r.version) : Refuses r s changes (.stale r.id s.version)
  | unfit (h : s = r) (hunfit : r.patched? changes = none) (cause : CellFault) :
      Refuses r s changes cause.failure

/-- Reads a record that is to be patched: the row after the changes, none if they would take the
flag away. -/
def prepare (id : Uuid) (changes : Fields) (seen : Int) : Flow (Option StoredRecord) := do
  let row ← Flow.fetch StoredRecord id
  let current ← Flow.shaped row.toRecord
  if current.version ≠ seen then throw (.stale id seen)
  Flow.taken (row.write current.fields changes)

def complete (id : Uuid) (seen : Int) (next : Option StoredRecord) : Flow Record := do
  let swapped ← Flow.swapIf id seen (fun row => next.getD row) next.isSome
  if !swapped then throw (.stale id seen)
  fetch id

/-- A patch reads first, and then it writes. -/
theorem patch_parts (id : Uuid) (changes : Fields) (seen : Int) :
    patch id changes seen = prepare id changes seen >>= complete id seen := by
  unfold patch prepare
  simp only [bind_assoc]
  refine bind_congr fun row => bind_congr fun current => ?_
  split
  · rfl
  · rfl

theorem looks_prepare (id : Uuid) (changes : Fields) (seen : Int) :
    Looks (prepare id changes seen) := by
  unfold prepare
  refine .bind (.fetch anyCause _ id) fun row => .bind (.shaped anyCause _) fun current => ?_
  exact .guarded trivial (.taken anyCause _)

section Parts
variable {w : World} {row : StoredRecord}

theorem read_eq {α : Type} (hf : w.tables.records.find? (fun x => x.id = r.id) = some row)
    (hr : row.toRecord = .ok r) (rest : StoredRecord → Record → Flow α) :
    (do let row ← Flow.fetch StoredRecord r.id; rest row (← Flow.shaped row.toRecord) : Flow α) w
      = rest row r w := by
  rw [bind_ok (fetch_of_find? hf), hr]
  exact bind_ok rfl _

theorem fetch_of_holds (h : w.tables.Holds r) : fetch r.id w = .ok r w := by
  obtain ⟨row, hf, hr⟩ := h
  unfold fetch
  rw [bind_ok (fetch_of_find? hf), hr]
  rfl

theorem prepare_current (hf : w.tables.records.find? (fun x => x.id = r.id) = some row)
    (hr : row.toRecord = .ok r) (changes : Fields) :
    prepare r.id changes r.version w = Flow.taken (row.write r.fields changes) w := by
  unfold prepare
  rw [read_eq hf hr, if_neg (not_not.mpr rfl)]

/-- A patch that takes the changes has a row for the record with what is kept of them. -/
theorem prepare_kept (h : w.tables.Holds r) (hkeys : (Fields.keys changes).Nodup)
    (hkept : changes.kept? = some kept) :
    ∃ next : StoredRecord, prepare r.id changes r.version w = .ok (some next) w
      ∧ next.toRecord = .ok (r.merged kept) ∧ next.id = r.id := by
  obtain ⟨row, hf, hr⟩ := h
  obtain ⟨next, hwrite, hnext, hid⟩ := StoredRecord.toRecord_write_kept hkeys hr hkept
  refine ⟨next, ?_, hnext, hid.trans (StoredRecord.id_of_toRecord hr).symm⟩
  rw [prepare_current hf hr, hwrite]
  rfl

theorem prepare_stale {seen : Int} (h : w.tables.Holds r) (hstale : seen ≠ r.version)
    (changes : Fields) : prepare r.id changes seen w = .error (.stale r.id seen) w := by
  obtain ⟨row, hf, hr⟩ := h
  unfold prepare
  rw [read_eq hf hr, if_pos hstale.symm]
  rfl

variable (hcalm : w.rivalWrites = 0) (hdistinct : w.tables.RecordsDistinct)
include hcalm hdistinct

/-- A row that another writer got to is not written any more. -/
theorem complete_stale {seen : Int} (h : w.tables.Holds r) (hstale : seen ≠ r.version)
    (hfits : Cell.fits (seen + 1) = true) (next : Option StoredRecord) :
    complete r.id seen next w = .error (.stale r.id seen) w := by
  obtain ⟨row, hf, hr⟩ := h
  have hthere := List.mem_of_find?_eq_some hf
  have gone (x : StoredRecord) (hx : x ∈ w.tables.records) (hid : x.id = r.id) :
      x.version ≠ seen := by
    have hsame : x = row := List.inj_on_of_nodup_map hdistinct hx hthere
      (hid.trans (StoredRecord.id_of_toRecord hr))
    rw [hsame, ← StoredRecord.version_of_toRecord hr]
    exact hstale.symm
  let change (x : StoredRecord) : StoredRecord := next.getD x
  unfold complete
  cases hs : Flow.swapIf r.id seen change next.isSome w with
  | error e v =>
    obtain ⟨-, ⟨-, hlarge⟩ | ⟨-, -, x, hx, hid, hversion⟩⟩ :=
      (swapIf_ends hcalm hdistinct rfl).bad_of hs
    · rw [hfits] at hlarge
      cases hlarge
    · exact absurd hversion (gone x hx hid)
  | ok swapped v =>
    have hswapped := (swapIf_ends hcalm hdistinct rfl).ok_of hs
    rw [bind_ok hs]
    cases swapped with
    | false =>
      rw [hswapped.1]
      rfl
    | true =>
      obtain ⟨-, -, x, hx, hid, hversion, -⟩ := hswapped
      exact absurd hversion (gone x hx hid)

/-- Whatever happened since it was prepared, a patch is completed as if it was made now. -/
theorem complete_eq_patch {seen : Int} {changes : Fields} {next : Option StoredRecord}
    (h : w.tables.Holds r) (hfits : seen ≠ r.version → Cell.fits (seen + 1) = true)
    (hready : seen = r.version → prepare r.id changes seen w = .ok next w) :
    complete r.id seen next w = patch r.id changes seen w := by
  rw [patch_parts]
  by_cases hversion : seen = r.version
  · rw [bind_ok (hready hversion)]
  · rw [complete_stale hcalm hdistinct h hversion (hfits hversion),
      bind_error (prepare_stale h hversion changes)]

/-- A row that is still as it was seen refuses to be left without a flag. -/
theorem complete_none (h : w.tables.Holds r) :
    Ends (complete r.id r.version none) w (fun _ _ => False)
      fun e v => v = w ∧ ∃ cause : CellFault, e = cause.failure := by
  obtain ⟨row, hf, hr⟩ := h
  unfold complete
  refine (swapIf_ends hcalm hdistinct rfl).bind (fun e v h => ?_) fun swapped v _ h => ?_
  · obtain ⟨rfl, ⟨rfl, -⟩ | ⟨rfl, -, -⟩⟩ := h
    · exact ⟨rfl, .tooLarge, rfl⟩
    · exact ⟨rfl, .unfit, rfl⟩
  · cases swapped with
    | true => exact absurd h.1 (by decide)
    | false =>
      have hgone := h.2 row (List.mem_of_find?_eq_some hf) (StoredRecord.id_of_toRecord hr).symm
      exact absurd (StoredRecord.version_of_toRecord hr).symm hgone

theorem complete_some (h : w.tables.Holds r) {next : StoredRecord} (hid : next.id = r.id)
    (hnext : next.toRecord = .ok s) :
    Ends (complete r.id r.version (some next)) w
      (fun after v => Cell.fits (r.version + 1) = true ∧ after = { s with version := r.version + 1 }
        ∧ after.Rewritten w v)
      fun e v => v = w ∧ Cell.fits (r.version + 1) = false ∧ e = CellFault.tooLarge.failure := by
  obtain ⟨row, hf, hr⟩ := h
  have hthere := List.mem_of_find?_eq_some hf
  have hrow : row.id = r.id := (StoredRecord.id_of_toRecord hr).symm
  unfold complete
  refine (swapIf_ends hcalm hdistinct rfl).bind (fun e v h => ?_) fun swapped v _ h => ?_
  · obtain ⟨rfl, ⟨rfl, hlarge⟩ | ⟨-, hsome, -⟩⟩ := h
    · exact ⟨rfl, hlarge, rfl⟩
    · cases hsome
  · cases swapped with
    | false => exact absurd (StoredRecord.version_of_toRecord hr).symm (h.2 row hthere hrow)
    | true =>
      obtain ⟨-, hfits, -, -, -, -, hv⟩ := h
      let written : StoredRecord := { next with version := r.version + 1 }
      have hwritten : written.toRecord = .ok { s with version := r.version + 1 } :=
        StoredRecord.toRecord_version hnext _
      have hrewritten : Rewritten { s with version := r.version + 1 } w v := by
        refine ⟨written, hwritten, hv.trans (congrArg w.setRows ?_)⟩
        refine List.map_congr_left fun x _ => ?_
        rw [← hid]
        rfl
      have hafter : s.id = r.id := (StoredRecord.id_of_toRecord hnext).trans hid
      have hfetched := fetch_of_holds (hrewritten.holds hdistinct ⟨row, hf, hr⟩ hafter)
      exact .of_ok (hafter ▸ hfetched) ⟨hfits, rfl, hrewritten⟩

/-- A patch over the stored version leaves the record with the changes behind, if it takes them. -/
theorem patch_current (h : w.tables.Holds r) {changes : Fields}
    (hkeys : (Fields.keys changes).Nodup) :
    Ends (patch r.id changes r.version) w
      (fun after v => r.patched? changes = some after ∧ after.Rewritten w v)
      fun e v => v = w ∧ r.patched? changes = none ∧ ∃ cause : CellFault, e = cause.failure := by
  have hholds := h
  obtain ⟨row, hf, hr⟩ := h
  rw [patch_parts]
  have hprepare := prepare_current hf hr changes
  cases hwrite : row.write r.fields changes with
  | error cause =>
    rw [hwrite] at hprepare
    have hunfit := patched?_of_not_written hkeys hr fun next hnext => by
      rw [hwrite] at hnext
      cases hnext
    exact .of_error (bind_error hprepare _) ⟨rfl, hunfit, cause, rfl⟩
  | ok next =>
    rw [hwrite] at hprepare
    refine .step hprepare ?_
    cases next with
    | none =>
      have hunfit := patched?_of_not_written hkeys hr fun next hnext => by
        rw [hwrite] at hnext
        cases hnext
      exact (complete_none hcalm hdistinct hholds).mono (fun _ _ h => h.elim)
        fun _ _ h => ⟨h.1, hunfit, h.2⟩
    | some next =>
      obtain ⟨kept, hkept⟩ := StoredRecord.kept_of_write hkeys hwrite
      obtain ⟨next', hwrite', hnext, hnextId⟩ := StoredRecord.toRecord_write_kept hkeys hr hkept
      obtain rfl : next = next' := Option.some.inj (Except.ok.inj (hwrite.symm.trans hwrite'))
      have hid : next.id = r.id := hnextId.trans (StoredRecord.id_of_toRecord hr).symm
      refine (complete_some hcalm hdistinct hholds hid hnext).mono ?_ ?_
      · rintro after v ⟨hfits, rfl, hrewritten⟩
        refine ⟨?_, hrewritten⟩
        rw [patched?, if_pos hfits, hkept]
        rfl
      · rintro e v ⟨rfl, hlarge, rfl⟩
        exact ⟨rfl, patched?_of_not_fits hlarge changes, .tooLarge, rfl⟩

/-- A patch leaves a record with the changes behind if it was seen as it is stored and takes them,
and is refused otherwise. -/
theorem patch_decides (h : w.tables.Holds r) {changes : Fields}
    (hkeys : (Fields.keys changes).Nodup) {seen : Record}
    (hseen : seen.version = r.version → seen = r) :
    Ends (patch r.id changes seen.version) w
      (fun after v => seen = r ∧ r.patched? changes = some after ∧ after.Rewritten w v)
      fun e v => v = w ∧ r.Refuses seen changes e := by
  by_cases hversion : seen.version = r.version
  · obtain rfl := hseen hversion
    refine (patch_current hcalm hdistinct h hkeys).mono (fun _ _ h => ⟨rfl, h⟩) ?_
    rintro e v ⟨rfl, hunfit, cause, rfl⟩
    exact ⟨rfl, .unfit rfl hunfit cause⟩
  · rw [patch_parts]
    exact .of_error (bind_error (prepare_stale h hversion changes) _) ⟨rfl, .stale hversion⟩

/-- Changes that fit their columns are refused only where the next version does not. -/
theorem patch_writable (h : w.tables.Holds r) (hchanges : changes.AreWritable) :
    Ends (patch r.id changes r.version) w
      (fun after v => Cell.fits (r.version + 1) = true
        ∧ after = { r.merged changes with version := r.version + 1 } ∧ after.Rewritten w v)
      fun e v => v = w ∧ Cell.fits (r.version + 1) = false ∧ e = .tooLarge := by
  obtain ⟨next, hprepare, hnext, hid⟩ := prepare_kept h hchanges.distinct hchanges.kept?
  rw [patch_parts]
  exact .step hprepare (complete_some hcalm hdistinct h hid hnext)

end Parts

/-! ## Changes that are merged -/

/-- A record is stored in the place of the one with its identifier, and nothing else is changed. -/
structure Replaces (after : Record) (w v : World) : Prop where
  stored : v.tables.Holds after
  others : v.tables.records.filter (fun x => x.id ≠ after.id)
    = w.tables.records.filter fun x => x.id ≠ after.id
  elsewhere : v = w.setRows v.tables.records

theorem Rewritten.replaces {w v : World} {after : Record} (h : after.Rewritten w v)
    (hdistinct : w.tables.RecordsDistinct) (hr : w.tables.Holds r) (hid : after.id = r.id) :
    after.Replaces w v where
  stored := h.holds hdistinct hr hid
  others := h.others
  elsewhere := by
    obtain ⟨next, -, rfl⟩ := h
    rfl

section Merged
variable {w : World}

/-- A patch over the stored version gives and stores the record that the changes are merged into, as
long as the next version has a place in its column. -/
theorem patch_merges (hcalm : w.rivalWrites = 0) (hdistinct : w.tables.RecordsDistinct)
    (h : w.tables.Holds r) (hchanges : changes.AreWritable) :
    let after : Record := { r.merged changes with version := r.version + 1 }
    (Cell.fits (r.version + 1) = true →
        ∃ v, patch r.id changes r.version w = .ok after v ∧ after.Replaces w v)
      ∧ (Cell.fits (r.version + 1) = false →
        patch r.id changes r.version w = .error .tooLarge w) := by
  have ends := patch_writable hcalm hdistinct h hchanges
  cases hpatch : patch r.id changes r.version w with
  | ok after v =>
    obtain ⟨hfits, rfl, hrewritten⟩ := ends.ok_of hpatch
    refine ⟨fun _ => ⟨v, rfl, hrewritten.replaces hdistinct h (r.merged_rest changes).1⟩, ?_⟩
    exact fun hlarge => absurd (hlarge.symm.trans hfits) Bool.false_ne_true
  | error e v =>
    obtain ⟨rfl, hlarge, rfl⟩ := ends.bad_of hpatch
    exact ⟨fun hfits => absurd (hlarge.symm.trans hfits) Bool.false_ne_true, fun _ => rfl⟩

def dealRow (number : Nat) (version : Int) : StoredRecord where
  id := TableName.record.rowId number
  module := "deals"
  ownerId := some "alice"
  stage := some "new"
  title := none
  isOpen := true
  data := .obj [("amount", .int 10), ("region", .str "north")]
  createdBy := none
  version := version
  createdAt := ⟨0⟩

def twoDeals (version : Int) : World :=
  (World.initial ⟨⟨0⟩, 0⟩ .standard .complete []).setRows [dealRow 1 1, dealRow 2 version]

def secondDeal (version : Int) : Record :=
  (dealRow 2 version).holding [("amount", .int 10), ("region", .str "north")]

theorem twoDeals_holds (version : Int) : (twoDeals version).tables.Holds (secondDeal version) :=
  ⟨dealRow 2 version, rfl, rfl⟩

theorem twoDeals_distinct (version : Int) : (twoDeals version).tables.RecordsDistinct := by
  show [TableName.record.rowId 1, TableName.record.rowId 2].Nodup
  decide

def dealChanges : Fields :=
  [("amount", .int 25), ("owner_id", .null), ("source", .str "web"), ("is_open", .bool false)]

theorem dealChanges_writable : dealChanges.AreWritable := by
  refine ⟨by decide, fun f v hv => ?_⟩
  cases f with
  | ownerId => exact ⟨none, (Option.some.inj hv).symm⟩
  | isOpen => exact ⟨false, (Option.some.inj hv).symm⟩
  | stage | title => cases hv

/-- The second deal is closed and given to nobody, and the first is not touched. -/
theorem patch_merges_deal : ∃ v, patch (secondDeal 7).id dealChanges 7 (twoDeals 7)
      = .ok { secondDeal 8 with
          ownerId := .null, isOpen := .bool false, fields := [("amount", .int 25),
            ("region", .str "north"), ("source", .str "web")] } v
    ∧ v.tables.records.filter (fun x => x.id ≠ (secondDeal 7).id) = [dealRow 1 1] := by
  obtain ⟨v, hpatch, hreplaces⟩ := (patch_merges rfl (twoDeals_distinct 7) (twoDeals_holds 7)
    dealChanges_writable).1 (by decide)
  exact ⟨v, hpatch, hreplaces.others⟩

/-- No version comes after the greatest one. -/
theorem patch_not_merged : ¬ ∀ (w : World) (r : Record) (changes : Fields), w.rivalWrites = 0 →
    w.tables.RecordsDistinct → w.tables.Holds r → changes.AreWritable →
      ∃ v, patch r.id changes r.version w
        = .ok { r.merged changes with version := r.version + 1 } v := by
  intro h
  have hdistinct := twoDeals_distinct (2 ^ 63 - 1)
  have hholds := twoDeals_holds (2 ^ 63 - 1)
  obtain ⟨v, hpatch⟩ := h _ _ dealChanges rfl hdistinct hholds dealChanges_writable
  have hfits := (patch_writable rfl hdistinct hholds dealChanges_writable).ok_of hpatch
  exact absurd hfits.1 (by decide)

end Merged

/-! ## Records as they are seen -/

/-- A row that another writer gets to in between is not written. -/
theorem swapIf_overtaken {w : World} {id : Uuid} {seen : Int} {change : StoredRecord → StoredRecord}
    {fits : Bool} (hrivals : w.rivalWrites ≠ 0)
    (hrows : ∀ row ∈ w.tables.records, row.id = id → row.version = seen) :
    Yields (Flow.swapIf id seen change fits) w fun swapped _ => swapped = false := by
  let rows : List StoredRecord := (w.overtaken StoredRecord).tables.records
  let test (row : StoredRecord) : Bool :=
    decide (Stored.id row = id) && decide (Versioned.version row = seen)
  have hnone : ∀ row ∈ rows, ¬ test row = true := by
    intro row hrow htest
    obtain ⟨old, hold, rfl⟩ := List.mem_map.mp hrow
    obtain ⟨hid, hversion⟩ : Stored.id _ = id ∧ Versioned.version _ = seen := by
      simpa [test] using htest
    have hold : old.version + 1 = old.version := hversion.trans (hrows old hold hid).symm
    omega
  have hany : rows.any test = false := by simpa using hnone
  unfold Flow.swapIf
  refine .step (letRivalWrite_eq w hrivals) ?_
  refine (Cell.bounded_ends (seen + 1) (w.overtaken StoredRecord)).yields.bind ?_
  rintro next v ⟨rfl, rfl, -⟩
  refine .step (a := rows) (t := w.overtaken StoredRecord) rfl ?_
  rw [show rows.any _ = false from hany, Bool.and_false]
  refine .step (updateWhere_eq test _ (w.overtaken StoredRecord)) (.pure ?_)
  rw [show (Stored.rows (w.overtaken StoredRecord).tables).filter test = []
    from List.filter_eq_nil_iff.mpr hnone]
  rfl

/-- Where rivals are to come, nothing is patched. -/
theorem patch_overtaken {w : World} (hdistinct : w.tables.RecordsDistinct) (h : w.tables.Holds r)
    (hrivals : w.rivalWrites ≠ 0) (changes : Fields) (seen : Int) :
    Yields (patch r.id changes seen) w fun _ _ => False := by
  by_cases hversion : seen = r.version
  · obtain ⟨row, hf, hr⟩ := h
    have hrows : ∀ x ∈ w.tables.records, x.id = r.id → x.version = seen := by
      intro x hx hid
      have hsame : x = row := List.inj_on_of_nodup_map hdistinct hx (List.mem_of_find?_eq_some hf)
        (hid.trans (StoredRecord.id_of_toRecord hr))
      rw [hsame, hversion, StoredRecord.version_of_toRecord hr]
    rw [patch_parts]
    refine (looks_prepare r.id changes seen).yields fun next => ?_
    unfold complete
    refine (swapIf_overtaken hrivals hrows).bind fun swapped v h => ?_
    rw [h]
    exact .throw
  · rw [patch_parts]
    exact .of_error (bind_error (prepare_stale h hversion changes) _) trivial

/-- Where no record can be read, there is nothing to patch. -/
theorem prepare_absent {w : World} {id : Uuid} (habsent : ∀ r, w.tables.Holds r → r.id ≠ id)
    (changes : Fields) (seen : Int) :
    Yields (prepare id changes seen) w fun _ _ => False := by
  unfold prepare
  refine (fetch_ends id w).yields.bind ?_
  rintro row v ⟨rfl, hf⟩
  cases hr : row.toRecord with
  | error cause => exact .of_error rfl trivial
  | ok r =>
    have hid : r.id = id := (StoredRecord.id_of_toRecord hr).trans (id_of_find? hf)
    exact absurd hid (habsent r ⟨row, hid ▸ hf, hr⟩)

/-- A patch over a version that was seen leaves what the record comes to with the changes. Where it is
refused, nothing was saved. -/
theorem patch_seen {w : World} {seen : Record} (hdistinct : w.tables.RecordsDistinct)
    (hshows : w.tables.Shows seen) (hkeys : (Fields.keys changes).Nodup) :
    Ends (patch seen.id changes seen.version) w
      (fun after v => seen.patched? changes = some after
        ∧ ∃ rows : List StoredRecord, v = w.setRows rows)
      fun e v => e.isLimit = false ∧ v.saved = w.saved := by
  have kept := incidental_patch (R := Beside true) seen.id changes seen.version w
  have left : Yields (patch seen.id changes seen.version) w fun after v =>
      seen.patched? changes = some after ∧ ∃ rows : List StoredRecord, v = w.setRows rows := by
    by_cases hstored : ∃ r, w.tables.Holds r ∧ r.id = seen.id
    · obtain ⟨r, hr, hid⟩ := hstored
      rw [← hid]
      by_cases hcalm : w.rivalWrites = 0
      · have hsame : seen.version = r.version → seen = r := fun h => (hshows r hr hid h.symm).symm
        refine (patch_decides hcalm hdistinct hr hkeys hsame).yields.mono ?_
        rintro after v ⟨rfl, hpatched, next, -, hv⟩
        exact ⟨hpatched, _, hv⟩
      · exact (patch_overtaken hdistinct hr hcalm changes _).mono fun _ _ h => h.elim
    · rw [patch_parts]
      refine (prepare_absent (fun r hr hid => hstored ⟨r, hr, hid⟩) changes _).bind ?_
      exact fun _ _ h => h.elim
  exact (Ends.and kept left).mono (fun _ _ h => h.2) fun _ _ h => ⟨h.1.1, h.1.2.saved⟩

end Record

end RecordFlow
