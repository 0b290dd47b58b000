import RecordFlow.Proofs.Record.Write

/-! # What is kept of changes

A column may keep a value in another form than it was given, such as the text of a number. A row
with changes holds the record with what is kept of them laid over it, and there is such a row exactly
if their values are all taken.
-/
namespace RecordFlow
variable {r : Record} {changes kept : Fields} {v u : Value}

/-- What the column of a system field keeps of a value; nothing if it does not take the value. -/
def SystemField.kept? : SystemField → Value → Option Value
  | .isOpen, v => (Cell.written Cell.flag v).map .bool
  | _, v => (Cell.text v).toOption.map .ofOption

theorem SystemField.kept?_text {f : SystemField} (hf : f ≠ .isOpen) (v : Value) :
    f.kept? v = (Cell.text v).toOption.map .ofOption := by
  cases f with
  | isOpen => exact absurd rfl hf
  | ownerId | stage | title => rfl

theorem SystemField.text_kept {f : SystemField} (hf : f ≠ .isOpen) (h : f.kept? v = some u) :
    Cell.text u = Cell.text v := by
  rw [kept?_text hf] at h
  cases hv : Cell.text v with
  | error cause => rw [hv] at h; cases h
  | ok s =>
    rw [hv] at h
    obtain rfl : Value.ofOption s = u := Option.some.inj h
    cases s <;> rfl

theorem SystemField.flag_kept (v u : Value) (h : SystemField.isOpen.kept? v = some u) :
    Cell.flag u = Cell.flag v := by
  obtain ⟨b, hb, rfl⟩ := Option.map_eq_some_iff.mp h
  unfold Cell.written at hb
  cases hv : Cell.flag v with
  | error cause => rw [hv] at hb; cases hb
  | ok flag =>
    rw [hv] at hb
    obtain rfl : flag = some b := hb
    rfl

namespace Fields

def keptAt? (key : String) (v : Value) : Option Value :=
  match SystemField.ofName? key with
  | some f => f.kept? v
  | none => some v

def kept? : Fields → Option Fields
  | [] => some []
  | (key, v) :: rest => do return (key, ← keptAt? key v) :: (← kept? rest)

theorem kept?_cons {rest : Fields} (h : kept? ((key, v) :: rest) = some kept) :
    ∃ u others, keptAt? key v = some u ∧ kept? rest = some others ∧ kept = (key, u) :: others := by
  obtain ⟨u, hu, h⟩ := Option.bind_eq_some_iff.mp h
  obtain ⟨others, hothers, h⟩ := Option.bind_eq_some_iff.mp h
  exact ⟨u, others, hu, hothers, (Option.some.inj h).symm⟩

theorem keys_kept (h : changes.kept? = some kept) : keys kept = keys changes := by
  induction changes generalizing kept with
  | nil => rw [← Option.some.inj h]
  | cons change rest ih =>
    obtain ⟨u, others, -, hothers, rfl⟩ := kept?_cons h
    exact congrArg (change.1 :: ·) (ih hothers)

theorem filter_kept (h : changes.kept? = some kept) :
    kept.filter (fun c => (SystemField.ofName? c.1).isNone)
      = changes.filter fun c => (SystemField.ofName? c.1).isNone := by
  induction changes generalizing kept with
  | nil => rw [← Option.some.inj h]
  | cons change rest ih =>
    obtain ⟨key, v⟩ := change
    obtain ⟨u, others, hu, hothers, rfl⟩ := kept?_cons h
    rw [List.filter_cons, List.filter_cons, ih hothers]
    cases hkey : SystemField.ofName? key with
    | some f => rfl
    | none =>
      simp only [keptAt?, hkey] at hu
      rw [Option.some.inj hu]

theorem get?_kept (h : changes.kept? = some kept) (f : SystemField) :
    get? kept f.name = (get? changes f.name).bind f.kept?
      ∧ ((get? changes f.name).isSome → (get? kept f.name).isSome) := by
  induction changes generalizing kept with
  | nil =>
    rw [← Option.some.inj h]
    exact ⟨rfl, fun h => h⟩
  | cons change rest ih =>
    obtain ⟨key, v⟩ := change
    obtain ⟨u, others, hu, hothers, rfl⟩ := kept?_cons h
    have hrest := ih hothers
    by_cases hkey : f.name = key
    · subst hkey
      simp only [keptAt?, f.ofName?_name] at hu
      simp only [get?, List.lookup_cons_self, Option.bind_some]
      exact ⟨hu.symm, fun _ => rfl⟩
    · have hne : (f.name == key) = false := by simpa using hkey
      simp only [get?, List.lookup_cons, hne] at hrest ⊢
      exact hrest

theorem areWritable_kept (hdistinct : (keys changes).Nodup) (h : changes.kept? = some kept) :
    kept.AreWritable where
  distinct := keys_kept h ▸ hdistinct
  taken f v hv := by
    obtain ⟨u, -, hu⟩ := Option.bind_eq_some_iff.mp ((get?_kept h f).1.symm.trans hv)
    cases f with
    | isOpen =>
      obtain ⟨b, -, hb⟩ := Option.map_eq_some_iff.mp hu
      exact ⟨b, hb.symm⟩
    | ownerId | stage | title =>
      obtain ⟨s, -, hs⟩ := Option.map_eq_some_iff.mp hu
      exact ⟨s, hs.symm⟩

theorem get?_of_mem (hdistinct : (keys changes).Nodup) (h : (key, v) ∈ changes) :
    get? changes key = some v := by
  induction changes with
  | nil => cases h
  | cons change rest ih =>
    obtain ⟨hnew, hrest⟩ := List.nodup_cons.mp hdistinct
    rcases List.mem_cons.mp h with rfl | h
    · exact List.lookup_cons_self
    · have hne : (key == change.1) = false := by
        simpa using fun heq : key = change.1 => hnew (List.mem_map.mpr ⟨(key, v), h, heq⟩)
      rw [get?, List.lookup_cons, hne]
      exact ih hrest h

theorem AreWritable.kept? (h : changes.AreWritable) : changes.kept? = some changes := by
  have each : ∀ c ∈ changes, keptAt? c.1 c.2 = some c.2 := by
    intro c hc
    unfold keptAt?
    cases hkey : SystemField.ofName? c.1 with
    | none => rfl
    | some f =>
      have hname : f.name = c.1 := SystemField.name_of_ofName? hkey
      have htakes := h.taken f c.2 (hname ▸ get?_of_mem h.distinct hc)
      by_cases hf : f = .isOpen
      · subst hf
        obtain ⟨b, hb⟩ := htakes
        rw [hb]
        rfl
      · obtain ⟨s, hs⟩ := htakes.text hf
        dsimp only
        rw [SystemField.kept?_text hf, hs]
        cases s <;> rfl
  clear h
  induction changes with
  | nil => rfl
  | cons change rest ih =>
    rw [Fields.kept?, each change List.mem_cons_self,
      ih fun c hc => each c (List.mem_cons_of_mem change hc)]
    rfl

theorem kept?_of_taken (h : ∀ c ∈ changes, (keptAt? c.1 c.2).isSome) :
    ∃ kept, changes.kept? = some kept := by
  induction changes with
  | nil => exact ⟨[], rfl⟩
  | cons change rest ih =>
    obtain ⟨u, hu⟩ := Option.isSome_iff_exists.mp (h change List.mem_cons_self)
    obtain ⟨others, hothers⟩ := ih fun c hc => h c (List.mem_cons_of_mem change hc)
    refine ⟨(change.1, u) :: others, ?_⟩
    rw [kept?, hu, hothers]
    rfl

end Fields

namespace StoredRecord
variable {row next : StoredRecord} {fields : Fields}

/-- A column reads what it keeps as it read what was given. -/
theorem changed_kept {α : Type} {f : SystemField} {read : Value → Except CellFault α}
    (hread : ∀ v u, f.kept? v = some u → read u = read v) (h : changes.kept? = some kept)
    (current : α) : changed kept f read current = changed changes f read current := by
  obtain ⟨hkept, htaken⟩ := Fields.get?_kept h f
  unfold changed
  cases hv : Fields.get? changes f.name with
  | none => rw [hkept, hv, Option.bind_none]
  | some v =>
    rw [hv, Option.isSome_some] at htaken
    obtain ⟨u, hu⟩ := Option.isSome_iff_exists.mp (htaken rfl)
    rw [hv, Option.bind_some, hu] at hkept
    rw [hu]
    exact hread v u hkept.symm

theorem write_kept (h : changes.kept? = some kept) (row : StoredRecord) (fields : Fields) :
    row.write fields kept = row.write fields changes := by
  have text {f : SystemField} (hf : f ≠ .isOpen) (current : Option String) :=
    changed_kept (fun v u => f.text_kept hf) h current
  unfold write
  rw [changed_kept SystemField.flag_kept h, text (by decide), text (by decide), text (by decide),
    Fields.filter_kept h]

theorem text_taken {f : SystemField} (hf : f ≠ .isOpen) {current after : Option String}
    (h : changed changes f Cell.text current = .ok after)
    (hv : Fields.get? changes f.name = some v) : (f.kept? v).isSome := by
  unfold changed at h
  rw [hv] at h
  rw [SystemField.kept?_text hf, show Cell.text v = .ok after from h]
  rfl

/-- A row that is written took all values of the changes. -/
theorem taken_of_write (h : row.write fields changes = .ok (some next)) (f : SystemField)
    (hv : Fields.get? changes f.name = some v) : (f.kept? v).isSome := by
  unfold write at h
  cases hopen : changed changes .isOpen Cell.flag (some row.isOpen) with
  | error cause => rw [hopen] at h; cases h
  | ok isOpen =>
    cases htitle : changed changes .title Cell.text row.title with
    | error cause => rw [hopen, htitle] at h; cases h
    | ok title =>
      cases howner : changed changes .ownerId Cell.text row.ownerId with
      | error cause => rw [hopen, htitle, howner] at h; cases h
      | ok ownerId =>
        cases hstage : changed changes .stage Cell.text row.stage with
        | error cause => rw [hopen, htitle, howner, hstage] at h; cases h
        | ok stage =>
          cases f with
          | ownerId => exact text_taken nofun howner hv
          | stage => exact text_taken nofun hstage hv
          | title => exact text_taken nofun htitle hv
          | isOpen =>
            rw [hopen, htitle, howner, hstage] at h
            obtain ⟨flag, hflag, -⟩ := Option.map_eq_some_iff.mp (Except.ok.inj h)
            unfold changed at hopen
            rw [hv, hflag] at hopen
            have hread : Cell.flag v = .ok (some flag) := hopen
            show ((Cell.flag v).toOption.join.map Value.bool).isSome
            rw [hread]
            rfl

/-- The columns take changes, each key of which occurs once, exactly if a row can be written. -/
theorem kept_of_write (hdistinct : (Fields.keys changes).Nodup)
    (h : row.write fields changes = .ok (some next)) : ∃ kept, changes.kept? = some kept := by
  refine Fields.kept?_of_taken fun c hc => ?_
  unfold Fields.keptAt?
  cases hkey : SystemField.ofName? c.1 with
  | none => rfl
  | some f =>
    have hname : f.name = c.1 := SystemField.name_of_ofName? hkey
    exact taken_of_write h f (hname ▸ Fields.get?_of_mem hdistinct hc)

theorem changed_text_ok {f : SystemField} (hwritable : changes.AreWritable) (hf : f ≠ .isOpen)
    (current : Option String) : ∃ after, changed changes f Cell.text current = .ok after := by
  unfold changed
  cases hv : Fields.get? changes f.name with
  | none => exact ⟨current, rfl⟩
  | some v =>
    obtain ⟨s, rfl⟩ := (hwritable.taken f v hv).text hf
    exact ⟨s, by cases s <;> rfl⟩

theorem changed_flag_ok (hwritable : changes.AreWritable) (current : Bool) :
    ∃ after, changed changes .isOpen Cell.flag (some current) = .ok after := by
  unfold changed
  cases hv : Fields.get? changes SystemField.isOpen.name with
  | none => exact ⟨some current, rfl⟩
  | some v =>
    obtain ⟨b, rfl⟩ := hwritable.taken .isOpen v hv
    exact ⟨some b, rfl⟩

theorem write_ok (hwritable : changes.AreWritable) (row : StoredRecord) (fields : Fields) :
    ∃ written, row.write fields changes = .ok written := by
  obtain ⟨isOpen, hopen⟩ := changed_flag_ok hwritable row.isOpen
  obtain ⟨title, htitle⟩ := changed_text_ok (f := .title) hwritable nofun row.title
  obtain ⟨ownerId, howner⟩ := changed_text_ok (f := .ownerId) hwritable nofun row.ownerId
  obtain ⟨stage, hstage⟩ := changed_text_ok (f := .stage) hwritable nofun row.stage
  unfold write
  rw [hopen, htitle, howner, hstage]
  exact ⟨_, rfl⟩

/-- A row with changes holds the record with what is kept of them laid over it. -/
theorem toRecord_write_kept (hdistinct : (Fields.keys changes).Nodup) (hr : row.toRecord = .ok r)
    (h : changes.kept? = some kept) : ∃ next, row.write r.fields changes = .ok (some next)
      ∧ next.toRecord = .ok (r.merged kept) ∧ next.id = row.id := by
  have hwritable := Fields.areWritable_kept hdistinct h
  obtain ⟨written, hwrite⟩ := write_ok hwritable row r.fields
  obtain ⟨next, rfl, hnext, hid, -⟩ := toRecord_write hwritable hr hwrite
  exact ⟨next, write_kept h row r.fields ▸ hwrite, hnext, hid⟩

end StoredRecord

end RecordFlow
