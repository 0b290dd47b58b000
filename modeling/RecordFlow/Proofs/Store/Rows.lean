import Mathlib.Data.List.Sort
import RecordFlow.Items
import RecordFlow.Proofs.Store.Beside

/-! # Rows that are written

What the tables hold after a row was inserted, changed or looked up.
-/
namespace RecordFlow
open RecordFlow.Flow
variable {ρ : Type} [Stored ρ]

def World.setRows (w : World) (rows : List ρ) : World :=
  { w with tables := Stored.setRows rows w.tables }

theorem find?_eq (id : Uuid) (w : World) :
    find? ρ id w = .ok ((Stored.rows w.tables).find? fun r => Stored.id r = id) w := rfl

theorem id_of_find? {rows : List ρ} {id : Uuid} {row : ρ}
    (h : rows.find? (fun r => Stored.id r = id) = some row) : Stored.id row = id := by
  simpa using List.find?_some h

theorem fetch_of_find? {id : Uuid} {w : World} {row : ρ}
    (h : (Stored.rows w.tables).find? (fun r : ρ => Stored.id r = id) = some row) :
    fetch ρ id w = .ok row w := by
  unfold fetch
  rw [bind_ok (find?_eq id w), h]
  rfl

theorem fetch_ends (id : Uuid) (w : World) :
    Ends (fetch ρ id) w
      (fun r v => v = w ∧ (Stored.rows w.tables).find? (fun r : ρ => Stored.id r = id) = some r)
      (fun e v => v = w ∧ e.isLimit = false) := by
  unfold fetch
  refine .step (find?_eq id w) ?_
  split
  · next r h => exact .pure ⟨rfl, h⟩
  · exact .throw ⟨rfl, rfl⟩

theorem updateWhere_eq (test : ρ → Bool) (change : ρ → ρ) (w : World) :
    updateWhere test change w = .ok ((Stored.rows w.tables).filter test).length
      (w.setRows ((Stored.rows w.tables).map fun r => if test r then change r else r)) := rfl

theorem update_eq (id : Uuid) (change : ρ → ρ) (w : World) :
    update id change w = .ok ()
      (w.setRows ((Stored.rows w.tables).map fun r =>
        if decide (Stored.id r = id) then change r else r)) := rfl

/-! ## Rows that are stored -/

def overwrite (row r : ρ) : ρ := if decide (Stored.id r = Stored.id row) then row else r

theorem overwrite_of_eq {row r : ρ} (h : Stored.id r = Stored.id row) : overwrite row r = row :=
  if_pos (decide_eq_true h)

theorem overwrite_of_ne {row r : ρ} (h : Stored.id r ≠ Stored.id row) : overwrite row r = r :=
  if_neg (by simpa using h)

theorem id_overwrite (row r : ρ) : Stored.id (overwrite row r) = Stored.id r := by
  by_cases h : Stored.id r = Stored.id row
  · rw [overwrite_of_eq h, h]
  · rw [overwrite_of_ne h]

theorem mem_overwrite {rows : List ρ} {row r : ρ} (hr : r ∈ rows)
    (hid : Stored.id r = Stored.id row) : row ∈ rows.map (overwrite row) :=
  List.mem_map.mpr ⟨r, hr, overwrite_of_eq hid⟩

/-- Once a row is stored it is the only one with its identifier. -/
theorem eq_of_mem_overwrite {rows : List ρ} {row r : ρ} (hr : r ∈ rows.map (overwrite row))
    (hid : Stored.id r = Stored.id row) : r = row := by
  obtain ⟨s, hs, rfl⟩ := List.mem_map.mp hr
  exact overwrite_of_eq (by rw [← hid, id_overwrite])

/-- The rows with other identifiers stay as they are, in their order. -/
theorem filter_overwrite (row : ρ) (rows : List ρ) :
    (rows.map (overwrite row)).filter (fun r => Stored.id r ≠ Stored.id row)
      = rows.filter fun r => Stored.id r ≠ Stored.id row := by
  induction rows with
  | nil => rfl
  | cons r rest ih =>
    rw [List.map_cons, List.filter_cons, List.filter_cons, ih, id_overwrite]
    split
    · next h => rw [overwrite_of_ne (of_decide_eq_true h)]
    · rfl

theorem store_ends (row : ρ) (w : World) :
    Ends (store row) w
      (fun _ v => v = w.setRows ((Stored.rows w.tables).map (overwrite row)))
      (fun e v => v = w ∧ e.isLimit = false) := by
  have taken : Ends (taken (sized row)) w (fun r v => v = w ∧ r = row)
      (fun e v => v = w ∧ e.isLimit = false) := by
    unfold sized
    split
    · exact .pure ⟨rfl, rfl⟩
    · exact .throw ⟨rfl, rfl⟩
  unfold store
  refine taken.bind (fun _ _ h => h) ?_
  rintro r v - ⟨rfl, rfl⟩
  exact .of_ok (update_eq (Stored.id r) (fun _ => r) v) rfl

/-- A row whose numbers have a place is stored. -/
theorem store_eq {row : ρ} (h : (Stored.wholes row).all Cell.fits = true) (w : World) :
    store row w = .ok () (w.setRows ((Stored.rows w.tables).map (overwrite row))) := by
  have hsized : taken (sized row) w = .ok row w := by
    rw [sized, if_pos h]
    rfl
  unfold store
  rw [bind_ok hsized]
  exact update_eq (Stored.id row) (fun _ => row) w

theorem overwrite_overwrite {row row' : ρ} (h : Stored.id row' = Stored.id row) (r : ρ) :
    overwrite row' (overwrite row r) = overwrite row' r := by
  by_cases hid : Stored.id r = Stored.id row
  · rw [overwrite_of_eq hid, overwrite_of_eq h.symm, overwrite_of_eq (hid.trans h.symm)]
  · rw [overwrite_of_ne hid]

/-! ## Rows that are swapped -/

theorem Cell.eq_of_bounded {n m : Int} (h : Cell.bounded n = .ok m) : n = m := by
  unfold Cell.bounded at h
  split at h
  · exact Except.ok.inj h
  · cases h

omit [Stored ρ] in
theorem filter_eq_singleton {rows : List ρ} (hdistinct : rows.Nodup) {row : ρ} (hrow : row ∈ rows)
    {test : ρ → Bool} (htest : ∀ r ∈ rows, test r = true ↔ r = row) : rows.filter test = [row] := by
  have honly : ∀ r ∈ rows.filter test, r = row := fun r hr =>
    (htest r (List.mem_filter.mp hr).1).mp (List.mem_filter.mp hr).2
  have hpos : 0 < (rows.filter test).length :=
    List.length_pos_of_mem (List.mem_filter.mpr ⟨hrow, (htest row hrow).mpr rfl⟩)
  have hreplicate := List.eq_replicate_of_mem honly
  have hle := List.nodup_replicate.mp (hreplicate ▸ hdistinct.filter test)
  rw [hreplicate, Nat.le_antisymm hle hpos]
  rfl

theorem Cell.bounded_ends (n : Int) (w : World) :
    Ends (taken (Cell.bounded n)) w (fun m v => v = w ∧ m = n ∧ Cell.fits n = true)
      fun e v => v = w ∧ e = .tooLarge ∧ Cell.fits n = false := by
  unfold Cell.bounded
  split
  · next h => exact .of_ok (a := n) rfl ⟨rfl, rfl, h⟩
  · next h => exact .of_error rfl ⟨rfl, rfl, by simpa using h⟩

/-- As many rows are kept as the limit says, or all of them if it is negative. -/
theorem Record.limited_ends {α : Type} (limit : Int) (rows : List α) (w : World) :
    Ends (Record.limited limit rows) w
      (fun kept v => v = w ∧ kept = if limit < 0 then rows else rows.take limit.toNat)
      fun _ v => v = w := by
  unfold Record.limited
  refine (Cell.bounded_ends limit w).bind (fun _ _ h => h.1) ?_
  rintro limit v - ⟨rfl, rfl, -⟩
  exact .pure ⟨rfl, rfl⟩

/-- Where no rival gets in first, a row is changed if it has the version that was seen, and nothing
is if there is none. A version that is too large is refused in any case, a change that does not fit
only by the row. -/
theorem swapIf_ends {ρ : Type} [Versioned ρ] {id : Uuid} {seen : Int} {change : ρ → ρ} {fits : Bool}
    {w : World} (hcalm : w.rivalWrites = 0)
    (hdistinct : ((Stored.rows w.tables : List ρ).map Stored.id).Nodup)
    (hrows : Stored.setRows (Stored.rows w.tables : List ρ) w.tables = w.tables) :
    Ends (swapIf id seen change fits) w
      (fun swapped v => match swapped with
        | true => fits = true ∧ Cell.fits (seen + 1) = true
          ∧ ∃ row ∈ (Stored.rows w.tables : List ρ), Stored.id row = id
          ∧ Versioned.version row = seen
          ∧ v = w.setRows ((Stored.rows w.tables).map fun r : ρ =>
            if decide (Stored.id r = id) then Versioned.setVersion (seen + 1) (change r) else r)
        | false => v = w ∧ ∀ row ∈ (Stored.rows w.tables : List ρ), Stored.id row = id →
          Versioned.version row ≠ seen)
      fun e v => v = w ∧ (e = .tooLarge ∧ Cell.fits (seen + 1) = false
        ∨ e = .constraint ∧ fits = false
          ∧ ∃ row ∈ (Stored.rows w.tables : List ρ), Stored.id row = id
            ∧ Versioned.version row = seen) := by
  let rows : List ρ := Stored.rows w.tables
  let test (r : ρ) : Bool := decide (Stored.id r = id) && decide (Versioned.version r = seen)
  have passes (r : ρ) : test r = true ↔ Stored.id r = id ∧ Versioned.version r = seen := by
    simp only [test, Bool.and_eq_true, decide_eq_true_eq]
  unfold swapIf
  refine .step (letRivalWrite_none w hcalm) ?_
  refine (Cell.bounded_ends (seen + 1) w).bind (fun e v h => ⟨h.1, .inl h.2⟩) ?_
  rintro next v - ⟨rfl, rfl, hnext⟩
  refine .step (a := rows) (t := v) rfl ?_
  by_cases hsome : ∃ row ∈ rows, test row = true
  · obtain ⟨row, hrow, htest⟩ := hsome
    obtain ⟨hid, hversion⟩ := (passes row).mp htest
    have hany : rows.any test = true := List.any_eq_true.mpr ⟨row, hrow, htest⟩
    cases fits with
    | false =>
      rw [show rows.any _ = true from hany]
      exact .of_error rfl ⟨rfl, .inr ⟨rfl, rfl, row, hrow, hid, hversion⟩⟩
    | true =>
      refine .step (updateWhere_eq test _ v) (.pure ?_)
      have same (r : ρ) (hr : r ∈ rows) (h : Stored.id r = id) : r = row :=
        List.inj_on_of_nodup_map hdistinct hr hrow (h.trans hid.symm)
      have hfilter : rows.filter test = [row] :=
        filter_eq_singleton (List.Nodup.of_map _ hdistinct) hrow fun r hr =>
          ⟨fun h => same r hr ((passes r).mp h).1, fun h => h ▸ htest⟩
      rw [show (Stored.rows v.tables).filter test = [row] from hfilter]
      refine ⟨rfl, hnext, row, hrow, hid, hversion,
        congrArg v.setRows (List.map_congr_left fun r hr => ?_)⟩
      by_cases h : Stored.id r = id
      · rw [if_pos (same r hr h ▸ htest), if_pos (decide_eq_true h)]
      · rw [if_neg fun ht => h ((passes r).mp ht).1, if_neg (by simpa using h)]
  · have hnone : ∀ r ∈ rows, ¬ test r = true := fun r hr h => hsome ⟨r, hr, h⟩
    have hany : rows.any test = false := by simpa using hnone
    rw [show rows.any _ = false from hany, Bool.and_false]
    refine .step (updateWhere_eq test _ v) (.pure ?_)
    have hfilter : (Stored.rows v.tables).filter test = [] := List.filter_eq_nil_iff.mpr hnone
    have hsame : ((Stored.rows v.tables).map fun r =>
        if test r then Versioned.setVersion (seen + 1) (change r) else r) = rows :=
      (List.map_congr_left fun r hr => if_neg (hnone r hr)).trans (List.map_id' _)
    rw [hfilter]
    refine ⟨?_, fun r hr hid hversion => hnone r hr ((passes r).mpr ⟨hid, hversion⟩)⟩
    rw [hsame, World.setRows, hrows]

theorem swap_ends {ρ : Type} [Versioned ρ] {id : Uuid} {seen : Int} {change : ρ → ρ} {w : World}
    (hcalm : w.rivalWrites = 0) (hdistinct : ((Stored.rows w.tables : List ρ).map Stored.id).Nodup)
    (hrows : Stored.setRows (Stored.rows w.tables : List ρ) w.tables = w.tables) :
    Ends (swap id seen change) w
      (fun swapped v => match swapped with
        | true => ∃ row ∈ (Stored.rows w.tables : List ρ), Stored.id row = id
          ∧ Versioned.version row = seen
          ∧ v = w.setRows ((Stored.rows w.tables).map fun r : ρ =>
            if decide (Stored.id r = id) then Versioned.setVersion (seen + 1) (change r) else r)
        | false => v = w ∧ ∀ row ∈ (Stored.rows w.tables : List ρ), Stored.id row = id →
          Versioned.version row ≠ seen)
      fun _ v => v = w := by
  refine (swapIf_ends hcalm hdistinct hrows).mono (fun swapped v h => ?_) fun _ _ h => h.1
  cases swapped with
  | true => exact h.2.2
  | false => exact h

theorem insertTaken_ends (build : Uuid → Except CellFault ρ) (fits : List ρ → ρ → Bool)
    (w : World) :
    Ends (insertTaken build fits) w
      (fun row v => build ((Stored.name ρ).rowId (w.nextNumber (Stored.name ρ))) = .ok row
        ∧ v = (w.useNumber (Stored.name ρ)).setRows (Stored.rows w.tables ++ [row]))
      (fun e v => v = w.useNumber (Stored.name ρ) ∧ e.isLimit = false) := by
  unfold insertTaken
  refine .step rfl (.step rfl ?_)
  cases hrow : build ((Stored.name ρ).rowId (w.nextNumber (Stored.name ρ))) >>= sized with
  | error cause => exact .of_error rfl ⟨rfl, by cases cause <;> rfl⟩
  | ok row =>
    have hbuild : build ((Stored.name ρ).rowId (w.nextNumber (Stored.name ρ))) = .ok row := by
      cases hb : build ((Stored.name ρ).rowId (w.nextNumber (Stored.name ρ))) with
      | error cause => rw [hb] at hrow; cases hrow
      | ok built =>
        rw [hb] at hrow
        simp only [bind, Except.bind, sized] at hrow
        split at hrow
        · exact hrow
        · cases hrow
    refine .step rfl (.step rfl ?_)
    split
    · exact .step rfl (.pure ⟨hbuild, rfl⟩)
    · exact .throw ⟨rfl, rfl⟩

theorem insertTaken_fits (build : Uuid → Except CellFault ρ) (fits : List ρ → ρ → Bool)
    (w : World) : Yields (insertTaken build fits) w fun row _ =>
      fits (Stored.rows w.tables) row = true := by
  unfold insertTaken
  refine .step rfl (.step rfl ?_)
  cases build ((Stored.name ρ).rowId (w.nextNumber (Stored.name ρ))) >>= sized with
  | error cause => exact Ends.of_error rfl trivial
  | ok row =>
    refine .step rfl (.step rfl (.ite (fun hfits => ?_) fun _ => .throw trivial))
    exact .step rfl (.pure hfits)

theorem insert_ends (build : Uuid → ρ) (w : World) :
    Ends (insert build) w
      (fun row v => row = build ((Stored.name ρ).rowId (w.nextNumber (Stored.name ρ)))
        ∧ v = (w.useNumber (Stored.name ρ)).setRows (Stored.rows w.tables ++ [row]))
      (fun _ v => v = w.useNumber (Stored.name ρ)) :=
  (insertTaken_ends (fun id => .ok (build id)) (fun _ _ => true) w).mono
    (fun _ _ h => ⟨(Except.ok.inj h.1).symm, h.2⟩) fun _ _ h => h.1

/-- A row is inserted if its numbers have a place and it breaks no constraint. -/
theorem insertIf_ends {build : Uuid → ρ} {fits : List ρ → ρ → Bool} {w : World} {row : ρ}
    (hrow : build ((Stored.name ρ).rowId (w.nextNumber (Stored.name ρ))) = row)
    (hsized : (Stored.wholes row).all Cell.fits = true)
    (hfits : fits (Stored.rows w.tables) row = true) :
    Ends (insertIf build fits) w
      (fun r v => r = row
        ∧ v = (w.useNumber (Stored.name ρ)).setRows (Stored.rows w.tables ++ [row]))
      fun _ _ => False := by
  have hbuilt : (Except.ok (build ((Stored.name ρ).rowId (w.nextNumber (Stored.name ρ)))) >>= sized
      : Except CellFault ρ) = .ok row := hrow ▸ if_pos (hrow.symm ▸ hsized)
  unfold insertIf insertTaken
  refine .step rfl (.step rfl ?_)
  rw [hbuilt]
  refine .step (a := row) rfl (.step rfl ?_)
  split
  · exact .step (a := ()) rfl (.pure ⟨rfl, rfl⟩)
  · next h => exact absurd hfits h

/-! ## What is looked up -/

abbrev Looks {α : Type} (part : Flow α) : Prop := Keeps (fun _ => True) Eq part

theorem Looks.ends {α : Type} {part : Flow α} (h : Looks part) (w : World) :
    Ends part w (fun _ v => v = w ∧ True) fun _ v => v = w :=
  (h w).mono (fun _ _ hv => ⟨hv.symm, trivial⟩) fun _ _ hv => hv.2.symm

theorem looks_orThrow {α : Type} (v : Except Failure α) : Looks (orThrow v) := fun w => by
  cases v with
  | ok a => exact .of_ok rfl rfl
  | error e => exact .of_error rfl ⟨trivial, rfl⟩

section Rest
variable {α β : Type} {part : Flow α} {rest : α → Flow β} {w : World}
variable {next : β → World → Prop} {bad : Failure → World → Prop}

/-- A part that only looks is followed by the rest in the same world. -/
theorem Looks.followed (h : Looks part) (hbad : ∀ e, bad e w)
    (hrest : ∀ a, Ends (rest a) w next bad) : Ends (part >>= rest) w next bad :=
  Ends.bind (h.ends w) (fun e _ hv => hv ▸ hbad e) fun a _ _ hv => hv.1 ▸ hrest a

theorem Looks.yields (h : Looks part) (hrest : ∀ a, Yields (rest a) w next) :
    Yields (part >>= rest) w next :=
  h.followed (fun _ => trivial) hrest

theorem Ends.fetched {id : Uuid} {rest : ρ → Flow β} (hbad : ∀ e, bad e w)
    (hrest : ∀ r ∈ Stored.rows w.tables, Stored.id r = id → Ends (rest r) w next bad) :
    Ends (fetch ρ id >>= rest) w next bad := by
  refine (fetch_ends id w).bind (fun e v h => h.1 ▸ hbad e) ?_
  rintro r _ - ⟨rfl, hfound⟩
  exact hrest r (List.mem_of_find?_eq_some hfound) (id_of_find? hfound)

theorem Yields.fetched {id : Uuid} {rest : ρ → Flow β}
    (hrest : ∀ r ∈ Stored.rows w.tables, Stored.id r = id → Yields (rest r) w next) :
    Yields (fetch ρ id >>= rest) w next :=
  Ends.fetched (fun _ => trivial) hrest

end Rest

theorem shaped_ends {α : Type} (x : Except ShapeFault α) (w : World) :
    Ends (shaped x) w (fun a v => v = w ∧ x = .ok a) fun _ v => v = w := by
  cases x with
  | ok a => exact .of_ok rfl ⟨rfl, rfl⟩
  | error cause => exact .of_error rfl rfl

theorem valid_ends {α : Type} (x : Schema.Checked α) (w : World) :
    Ends (valid x) w (fun a v => v = w ∧ x = .valid a) fun _ v => v = w := by
  cases x with
  | valid a => exact .of_ok rfl ⟨rfl, rfl⟩
  | invalid issues => exact .of_error rfl rfl

theorem stepAt_ends {α : Type} (steps : List α) (position : Int) (w : World) :
    Ends (stepAt steps position) w (fun s v => v = w ∧ itemAt? steps position = some s)
      fun _ v => v = w := by
  unfold stepAt
  cases itemAt? steps position with
  | some s => exact .of_ok rfl ⟨rfl, rfl⟩
  | none => exact .of_error rfl rfl

/-! ## Rows in order -/

section Order
variable {α : Type}

theorem sorted_eq_insertionSort (le : α → α → Bool) (items : List α) :
    sorted le items = items.insertionSort fun a b => le a b = true := by
  have insert (a : α) (items : List α) :
      insertSorted le a items = items.orderedInsert (fun a b => le a b = true) a := by
    induction items with
    | nil => rfl
    | cons b rest ih => rw [insertSorted, List.orderedInsert_cons, ih]
  induction items with
  | nil => rfl
  | cons a rest ih => rw [sorted, ih, insert, List.insertionSort_cons]

theorem sorted_perm (le : α → α → Bool) (items : List α) : (sorted le items).Perm items := by
  rw [sorted_eq_insertionSort]
  exact List.perm_insertionSort _ items

@[simp] theorem mem_sorted {le : α → α → Bool} {a : α} {items : List α} :
    a ∈ sorted le items ↔ a ∈ items :=
  (sorted_perm le items).mem_iff

/-- What is sorted by a total order is in that order. -/
theorem pairwise_sorted {le : α → α → Bool} {r : α → α → Prop} [DecidableRel r] [Std.Total r]
    [IsTrans α r] (hle : ∀ a b, le a b = true ↔ r a b) (items : List α) :
    (sorted le items).Pairwise r := by
  rw [sorted_eq_insertionSort]
  simp only [hle]
  exact List.pairwise_insertionSort r items

end Order

end RecordFlow
