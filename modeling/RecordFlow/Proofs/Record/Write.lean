import Mathlib.Data.List.Nodup
import RecordFlow.Proofs.Store.Rows
import RecordFlow.Record.Store
import RecordFlow.Value.Order

/-! # Writing changes to a record

Changes that are laid over a record and changes that are written to its row come to the same, if the
system fields among them hold what their columns take and no key occurs twice.
-/
namespace RecordFlow
variable {r : Record} {changes : Fields} {key : String} {v : Value}

namespace Value

theorem same_ofOption {s : Option String} {v : Value} (h : (Value.ofOption s).same v = true) :
    v = .ofOption s := by
  cases s with
  | none =>
    cases v <;> first | rfl | cases h
  | some s =>
    cases v with
    | str t => rw [show t = s from (beq_iff_eq.mp h).symm]; rfl
    | _ => cases h

end Value

namespace SystemField

theorem ofName?_name (f : SystemField) : ofName? f.name = some f := by
  cases f <;> rfl

theorem name_of_ofName? {f : SystemField} (h : ofName? key = some f) : f.name = key := by
  unfold ofName? at h
  split at h
  · next hkey => rw [hkey, ← Option.some.inj h]; rfl
  · split at h
    · next hkey => rw [hkey, ← Option.some.inj h]; rfl
    · split at h
      · next hkey => rw [hkey, ← Option.some.inj h]; rfl
      · split at h
        · next hkey => rw [hkey, ← Option.some.inj h]; rfl
        · cases h

def Takes : SystemField → Value → Prop
  | .isOpen, v => ∃ b, v = .bool b
  | _, v => ∃ s, v = .ofOption s

theorem Takes.text {f : SystemField} (h : f.Takes v) (hf : f ≠ .isOpen) : ∃ s, v = .ofOption s := by
  cases f with
  | isOpen => exact absurd rfl hf
  | ownerId | stage | title => exact h

end SystemField

/-- Changes of which every system field holds what its column takes, with every key once. -/
structure Fields.AreWritable (changes : Fields) : Prop where
  distinct : (keys changes).Nodup
  taken : ∀ f : SystemField, ∀ v, get? changes f.name = some v → f.Takes v

namespace Record

def system (r : Record) : SystemField → Value
  | .ownerId => r.ownerId
  | .stage => r.stage
  | .title => r.title
  | .isOpen => r.isOpen

/-- A record is known by its system fields, its other fields, and the rest. -/
theorem eq_of_system {s : Record} (hsystem : ∀ f, r.system f = s.system f)
    (hfields : r.fields = s.fields) (hrest : r.id = s.id ∧ r.module = s.module
      ∧ r.version = s.version ∧ r.createdBy = s.createdBy) : r = s := by
  have howner := hsystem .ownerId
  have hstage := hsystem .stage
  have htitle := hsystem .title
  have hopen := hsystem .isOpen
  cases r
  cases s
  simp only [system] at howner hstage htitle hopen
  simp_all only

theorem put_system (r : Record) (key : String) (v : Value) (f : SystemField) :
    (r.put key v).system f = if key = f.name then v else r.system f := by
  unfold put
  cases h : SystemField.ofName? key with
  | none =>
    have hne : key ≠ f.name := by
      intro heq
      rw [heq, f.ofName?_name] at h
      cases h
    rw [if_neg hne]
    cases f <;> rfl
  | some g =>
    obtain rfl := SystemField.name_of_ofName? h
    cases g <;> cases f <;> rfl

theorem put_fields (r : Record) (key : String) (v : Value) :
    (r.put key v).fields
      = if (SystemField.ofName? key).isNone then Fields.put key v r.fields else r.fields := by
  unfold put
  cases SystemField.ofName? key with
  | none => rfl
  | some g => cases g <;> rfl

theorem merged_cons (r : Record) (change : String × Value) (rest : Fields) :
    r.merged (change :: rest) = (r.put change.1 change.2).merged rest := rfl

/-- Changes lay the last value of a key over the record; a key that occurs once has no other. -/
theorem merged_system (hdistinct : (Fields.keys changes).Nodup) (f : SystemField) :
    (r.merged changes).system f = (Fields.get? changes f.name).getD (r.system f) := by
  induction changes generalizing r with
  | nil => rfl
  | cons change rest ih =>
    obtain ⟨key, v⟩ := change
    obtain ⟨hnew, hrest⟩ := List.nodup_cons.mp hdistinct
    rw [merged_cons, ih hrest, put_system]
    by_cases hkey : key = f.name
    · subst hkey
      have hnone : Fields.get? rest f.name = none := by
        refine List.lookup_eq_none_iff.mpr fun c hc => ?_
        have hne : f.name ≠ c.1 := fun heq => hnew (List.mem_map.mpr ⟨c, hc, heq.symm⟩)
        simpa using hne
      have hsome : Fields.get? ((f.name, v) :: rest) f.name = some v := List.lookup_cons_self
      rw [hnone, hsome, if_pos rfl]
      rfl
    · have hskip : Fields.get? ((key, v) :: rest) f.name = Fields.get? rest f.name := by
        have hne : (f.name == key) = false := by simpa using fun heq => hkey heq.symm
        rw [Fields.get?, Fields.get?, List.lookup_cons, hne]
      rw [hskip, if_neg hkey]

theorem merged_fields : (r.merged changes).fields
    = Fields.putAll r.fields (changes.filter fun c => (SystemField.ofName? c.1).isNone) := by
  induction changes generalizing r with
  | nil => rfl
  | cons change rest ih =>
    rw [merged_cons, ih, put_fields, List.filter_cons]
    split
    · rfl
    · rfl

theorem put_rest (r : Record) (key : String) (v : Value) : (r.put key v).id = r.id
    ∧ (r.put key v).module = r.module ∧ (r.put key v).version = r.version
    ∧ (r.put key v).createdBy = r.createdBy := by
  unfold put
  cases SystemField.ofName? key with
  | none => exact ⟨rfl, rfl, rfl, rfl⟩
  | some g => cases g <;> exact ⟨rfl, rfl, rfl, rfl⟩

theorem merged_rest (r : Record) (changes : Fields) : (r.merged changes).id = r.id
    ∧ (r.merged changes).module = r.module ∧ (r.merged changes).version = r.version
    ∧ (r.merged changes).createdBy = r.createdBy := by
  induction changes generalizing r with
  | nil => exact ⟨rfl, rfl, rfl, rfl⟩
  | cons change rest ih =>
    obtain ⟨hid, hmodule, hversion, hcreated⟩ := ih (r.put change.1 change.2)
    obtain ⟨hid', hmodule', hversion', hcreated'⟩ := r.put_rest change.1 change.2
    exact ⟨hid.trans hid', hmodule.trans hmodule', hversion.trans hversion',
      hcreated.trans hcreated'⟩

theorem merged_version (r : Record) (changes : Fields) (version : Int) :
    ({ r with version := version } : Record).merged changes
      = { r.merged changes with version := version } := by
  induction changes generalizing r with
  | nil => rfl
  | cons change rest ih =>
    have hput : ({ r with version := version } : Record).put change.1 change.2
        = { r.put change.1 change.2 with version := version } := by
      unfold put
      cases SystemField.ofName? change.1 with
      | none => rfl
      | some f => cases f <;> rfl
    rw [merged_cons, merged_cons, hput, ih]

end Record

namespace StoredRecord
variable {row next : StoredRecord} {written : Option StoredRecord}

/-- What is in a text column after changes is what the changed record holds. -/
theorem changed_text {f : SystemField} {current after : Option String}
    (hwritable : changes.AreWritable) (htext : f ≠ .isOpen)
    (h : changed changes f Cell.text current = .ok after) :
    Value.ofOption after = (Fields.get? changes f.name).getD (.ofOption current) := by
  unfold changed at h
  cases hget : Fields.get? changes f.name with
  | none =>
    rw [hget] at h
    rw [← Except.ok.inj h]
    rfl
  | some v =>
    rw [hget] at h
    obtain ⟨s, rfl⟩ := (hwritable.taken f v hget).text htext
    have hs : Cell.text (.ofOption s) = .ok s := by cases s <;> rfl
    rw [← Except.ok.inj (hs.symm.trans h)]
    rfl

theorem changed_flag {current : Bool} {after : Option Bool} (hwritable : changes.AreWritable)
    (h : changed changes .isOpen Cell.flag (some current) = .ok after) :
    ∃ b, after = some b
      ∧ Value.bool b = (Fields.get? changes SystemField.isOpen.name).getD (.bool current) := by
  unfold changed at h
  cases hget : Fields.get? changes SystemField.isOpen.name with
  | none =>
    rw [hget] at h
    exact ⟨current, (Except.ok.inj h).symm, rfl⟩
  | some v =>
    rw [hget] at h
    obtain ⟨b, rfl⟩ := hwritable.taken .isOpen v hget
    exact ⟨b, (Except.ok.inj h).symm, rfl⟩

def holding (row : StoredRecord) (fields : Fields) : Record where
  id := row.id
  module := .str row.module
  ownerId := .ofOption row.ownerId
  stage := .ofOption row.stage
  fields := fields
  version := row.version
  createdBy := .ofOption row.createdBy
  title := .ofOption row.title
  isOpen := .bool row.isOpen

theorem toRecord_of_mapping {fields : Fields} (h : row.data.mapping = .ok fields) :
    row.toRecord = .ok (row.holding fields) := by
  unfold toRecord
  rw [h]
  rfl

theorem eq_holding (h : row.toRecord = .ok r) :
    ∃ fields, row.data.mapping = .ok fields ∧ r = row.holding fields := by
  cases hm : row.data.mapping with
  | error cause =>
    unfold toRecord at h
    rw [hm] at h
    cases h
  | ok fields =>
    rw [toRecord_of_mapping hm] at h
    exact ⟨fields, rfl, (Except.ok.inj h).symm⟩

theorem id_of_toRecord (h : row.toRecord = .ok r) : r.id = row.id := by
  obtain ⟨fields, -, rfl⟩ := eq_holding h
  rfl

theorem text_of_toRecord (h : row.toRecord = .ok r) :
    r.module = .str row.module ∧ r.stage = .ofOption row.stage := by
  obtain ⟨fields, -, rfl⟩ := eq_holding h
  exact ⟨rfl, rfl⟩

theorem version_of_toRecord (h : row.toRecord = .ok r) : r.version = row.version := by
  obtain ⟨fields, -, rfl⟩ := eq_holding h
  rfl

theorem toRecord_version (h : row.toRecord = .ok r) (version : Int) :
    { row with version := version }.toRecord = .ok { r with version := version } := by
  obtain ⟨fields, hmapping, rfl⟩ := eq_holding h
  exact toRecord_of_mapping hmapping

theorem write_eq {fields : Fields} (hwritable : changes.AreWritable)
    (h : row.write fields changes = .ok written) : ∃ ownerId stage title isOpen,
    written = some { row with ownerId, stage, title, isOpen, data := .obj (Fields.putAll fields
        (changes.filter fun c => (SystemField.ofName? c.1).isNone)) }
      ∧ Value.ofOption ownerId
        = (Fields.get? changes SystemField.ownerId.name).getD (.ofOption row.ownerId)
      ∧ Value.ofOption stage = (Fields.get? changes SystemField.stage.name).getD (.ofOption row.stage)
      ∧ Value.ofOption title = (Fields.get? changes SystemField.title.name).getD (.ofOption row.title)
      ∧ Value.bool isOpen = (Fields.get? changes SystemField.isOpen.name).getD (.bool row.isOpen) := by
  unfold write at h
  cases hopen : changed changes .isOpen Cell.flag (some row.isOpen) with
  | error cause => rw [hopen] at h; cases h
  | ok isOpen =>
    obtain ⟨flag, rfl, hflag⟩ := changed_flag hwritable hopen
    cases htitle : changed changes .title Cell.text row.title with
    | error cause => rw [hopen, htitle] at h; cases h
    | ok title =>
      cases howner : changed changes .ownerId Cell.text row.ownerId with
      | error cause => rw [hopen, htitle, howner] at h; cases h
      | ok ownerId =>
        cases hstage : changed changes .stage Cell.text row.stage with
        | error cause => rw [hopen, htitle, howner, hstage] at h; cases h
        | ok stage =>
          rw [hopen, htitle, howner, hstage] at h
          exact ⟨ownerId, stage, title, flag, (Except.ok.inj h).symm,
            changed_text hwritable nofun howner, changed_text hwritable nofun hstage,
            changed_text hwritable nofun htitle, hflag⟩

/-- A row with changes holds the record with the changes laid over it. -/
theorem toRecord_write (hwritable : changes.AreWritable) (hr : row.toRecord = .ok r)
    (h : row.write r.fields changes = .ok written) : ∃ next, written = some next
      ∧ next.toRecord = .ok (r.merged changes) ∧ next.id = row.id ∧ next.version = row.version := by
  obtain ⟨ownerId, stage, title, isOpen, rfl, howner, hstage, htitle, hopen⟩ :=
    write_eq hwritable h
  refine ⟨_, rfl, ?_, rfl, rfl⟩
  obtain ⟨fields, -, rfl⟩ := eq_holding hr
  rw [toRecord_of_mapping rfl]
  refine congrArg Except.ok (Record.eq_of_system (fun f => ?_) Record.merged_fields.symm ?_)
  · rw [Record.merged_system hwritable.distinct]
    cases f with
    | ownerId => exact howner
    | stage => exact hstage
    | title => exact htitle
    | isOpen => exact hopen
  · obtain ⟨hid, hmodule, hversion, hcreated⟩ := (row.holding fields).merged_rest changes
    exact ⟨hid.symm, hmodule.symm, hversion.symm, hcreated.symm⟩

end StoredRecord

/-- A record is what is stored under its identifier. -/
def Tables.Holds (t : Tables) (r : Record) : Prop :=
  ∃ row, t.records.find? (fun row => row.id = r.id) = some row ∧ row.toRecord = .ok r

namespace Record
variable {w v : World} {id : Uuid}

theorem get?_of_find? {row : StoredRecord}
    (hf : w.tables.records.find? (fun row => row.id = id) = some row) (hr : row.toRecord = .ok r) :
    get? id w = .ok (some r) w := by
  have hf' : (Stored.rows w.tables).find? (fun row : StoredRecord => Stored.id row = id)
      = some row := hf
  unfold get?
  rw [bind_ok (find?_eq id w)]
  simp only [hf', hr]
  rfl

theorem get?_of_holds (h : w.tables.Holds r) : get? r.id w = .ok (some r) w := by
  obtain ⟨row, hf, hr⟩ := h
  exact get?_of_find? hf hr

theorem holds_of_get? (h : get? id w = .ok (some r) v) : w.tables.Holds r ∧ r.id = id ∧ v = w := by
  cases hf : w.tables.records.find? fun row => row.id = id with
  | none =>
    have hf' : (Stored.rows w.tables).find? (fun row : StoredRecord => Stored.id row = id)
        = none := hf
    have hnone : get? id w = .ok none w := by
      unfold get?
      rw [bind_ok (find?_eq id w)]
      simp only [hf']
      rfl
    rw [hnone] at h
    cases h
  | some row =>
    cases hr : row.toRecord with
    | error cause =>
      have hf' : (Stored.rows w.tables).find? (fun row : StoredRecord => Stored.id row = id)
          = some row := hf
      have hbad : get? id w = .error (.shape cause) w := by
        unfold get?
        rw [bind_ok (find?_eq id w)]
        simp only [hf', hr]
        rfl
      rw [hbad] at h
      cases h
    | ok s =>
      rw [get?_of_find? hf hr] at h
      have hid : s.id = id := (StoredRecord.id_of_toRecord hr).trans (id_of_find? hf)
      cases h
      exact ⟨⟨row, hid ▸ hf, hr⟩, hid, rfl⟩

theorem fetched_ends (id : Uuid) (w : World) :
    Ends (fetch id) w (fun r v => v = w ∧ ∃ row,
      w.tables.records.find? (fun row => row.id = id) = some row ∧ row.toRecord = .ok r)
      fun _ _ => True := by
  unfold fetch
  refine (fetch_ends id w).bind (fun _ _ _ => trivial) fun row v _ hrow => ?_
  obtain ⟨rfl, hf⟩ := hrow
  exact (shaped_ends row.toRecord v).mono (fun r u hr => ⟨hr.1, row, hf, hr.2⟩) fun _ _ _ => trivial

end Record

def Tables.RecordsDistinct (t : Tables) : Prop := (t.records.map StoredRecord.id).Nodup

namespace StoredRecord

def overtaken (row : StoredRecord) : StoredRecord := { row with version := row.version + 1 }

def overwritten (id : Uuid) (seen : Int) (next row : StoredRecord) : StoredRecord :=
  if decide (row.id = id) && decide (row.version = seen) then { next with version := seen + 1 }
  else row

theorem overwritten_id {id : Uuid} {seen : Int} {next : StoredRecord} (hnext : next.id = id)
    (row : StoredRecord) : (overwritten id seen next row).id = row.id := by
  unfold overwritten
  split
  · next h =>
    rw [Bool.and_eq_true, decide_eq_true_eq] at h
    exact hnext.trans h.1.symm
  · rfl

end StoredRecord

/-- A write over a version goes through only if no other writer got in first. -/
theorem swapRecord_ends {w : World} (hdistinct : w.tables.RecordsDistinct) {row : StoredRecord}
    (hrow : row ∈ w.tables.records) (next : StoredRecord) :
    Ends (Flow.swap row.id row.version fun _ => next) w
      (fun swapped v => swapped = true → v.tables = { w.tables with
        records := w.tables.records.map (.overwritten row.id row.version next) })
      fun _ _ => True := by
  rw [swap_eq]
  by_cases hrivals : w.rivalWrites = 0
  · refine .step (letRivalWrite_none w hrivals) ?_
    cases hb : Cell.bounded (row.version + 1) with
    | error cause => exact .of_error rfl trivial
    | ok version =>
      obtain rfl := Cell.eq_of_bounded hb
      refine .step (a := row.version + 1) (t := w) rfl ?_
      exact .step (updateWhere_eq _ _ w) (.pure fun _ => rfl)
  · refine .step (letRivalWrite_eq w hrivals) ?_
    cases hb : Cell.bounded (row.version + 1) with
    | error cause => exact .of_error rfl trivial
    | ok version =>
      refine .step (a := version) rfl (.step (updateWhere_eq _ _ _) (.pure fun hone => ?_))
      -- The only row with the identifier has another version by now.
      have hnone : (w.tables.records.map StoredRecord.overtaken).filter (fun r =>
          decide (r.id = row.id) && decide (r.version = row.version)) = [] := by
        refine List.filter_eq_nil_iff.mpr fun r hr htest => ?_
        obtain ⟨s, hs, rfl⟩ := List.mem_map.mp hr
        simp only [Bool.and_eq_true, decide_eq_true_eq] at htest
        obtain ⟨hid, hversion⟩ := htest
        have hsame : s = row := List.inj_on_of_nodup_map hdistinct hs hrow hid
        rw [hsame] at hversion
        simp only [StoredRecord.overtaken] at hversion
        omega
      have hzero : decide (([] : List StoredRecord).length = 1) = true := hnone ▸ hone
      cases hzero

namespace Record
variable {w : World}

/-- A write over the version of a stored record leaves that record behind with the changes. -/
theorem patch_ends (hdistinct : w.tables.RecordsDistinct) (hholds : w.tables.Holds r)
    (hwritable : changes.AreWritable) :
    Ends (patch r.id changes r.version) w
      (fun after v => after = { r.merged changes with version := r.version + 1 } ∧ v.tables.Holds after
        ∧ v.tables.RecordsDistinct ∧ v.tables.workflows = w.tables.workflows)
      fun _ _ => True := by
  obtain ⟨row, hf, hr⟩ := hholds
  have hid := StoredRecord.id_of_toRecord hr
  have hversion := StoredRecord.version_of_toRecord hr
  unfold patch
  refine (fetch_ends r.id w).bind (fun _ _ _ => trivial) fun row' v _ hrow => ?_
  obtain ⟨rfl, hf'⟩ := hrow
  obtain rfl : row = row' := Option.some.inj (hf.symm.trans hf')
  refine .step (a := r) (t := v) (by rw [hr]; rfl) ?_
  rw [if_neg (not_not.mpr rfl)]
  cases hwrite : row.write r.fields changes with
  | error cause =>
    refine Ends.bind (Ends.any (s := v)) (fun _ _ h => h) fun a u ha _ => ?_
    cases cause <;> cases ha
  | ok written =>
    obtain ⟨next, rfl, hnext, hnextId, -⟩ := StoredRecord.toRecord_write hwritable hr hwrite
    refine .step (a := some next) (t := v) rfl ?_
    rw [hid, hversion]
    refine Ends.bind (swapRecord_ends hdistinct (List.mem_of_find?_eq_some hf) next)
      (fun _ _ _ => trivial) fun swapped u _ hu => ?_
    cases swapped with
    | false => exact .of_error rfl trivial
    | true =>
      have htables := hu rfl
      have kept (x : StoredRecord) : (StoredRecord.overwritten row.id row.version next x).id = x.id :=
        StoredRecord.overwritten_id hnextId x
      have hfound : u.tables.records.find? (fun x => x.id = row.id)
          = some { next with version := row.version + 1 } := by
        have hsame : (fun x : StoredRecord => decide (x.id = row.id))
            ∘ StoredRecord.overwritten row.id row.version next = fun x => decide (x.id = row.id) := by
          funext x
          rw [Function.comp_apply, kept x]
        have hf : v.tables.records.find? (fun x => decide (x.id = row.id)) = some row := hid ▸ hf
        rw [htables]
        dsimp only
        rw [List.find?_map, hsame, hf]
        simp [StoredRecord.overwritten]
      refine (fetched_ends row.id u).mono (fun after x hafter => ?_) fun _ _ _ => trivial
      obtain ⟨rfl, found, hfound', hafter⟩ := hafter
      obtain rfl := Option.some.inj (hfound.symm.trans hfound')
      rw [StoredRecord.toRecord_version hnext] at hafter
      obtain rfl := Except.ok.inj hafter
      obtain ⟨hmergedId, -⟩ := r.merged_rest changes
      refine ⟨rfl, ⟨_, ?_, StoredRecord.toRecord_version hnext _⟩, ?_, ?_⟩
      · rw [show Record.id _ = row.id from hmergedId.trans hid]
        exact hfound
      · rw [Tables.RecordsDistinct, htables, List.map_map]
        have hsame : StoredRecord.id ∘ StoredRecord.overwritten row.id row.version next
            = StoredRecord.id := funext kept
        rw [hsame]
        exact hdistinct
      · rw [htables]

end Record

end RecordFlow
