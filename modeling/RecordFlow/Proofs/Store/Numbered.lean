import Mathlib.Data.List.Nodup
import RecordFlow.Store.Access

/-! # Numbered rows

The identifier of a row shows the number that its table gave it. As no number is given twice, no
two rows share an identifier, and a row that is inserted gets one that no row has.
-/
namespace RecordFlow

namespace Uuid

theorem decimalAsHex_fuel {fuel n : Nat} (h : n ≤ fuel) :
    decimalAsHex fuel n = decimalAsHex n n := by
  induction fuel using Nat.strongRecOn generalizing n with
  | ind fuel ih =>
    cases fuel with
    | zero => rw [Nat.le_zero.mp h]
    | succ fuel =>
      cases n with
      | zero => simp [decimalAsHex]
      | succ n =>
        have hq : (n + 1) / 10 ≤ n := by omega
        have hl := ih fuel (by omega) (n := (n + 1) / 10) (by omega)
        have hr := ih n (by omega) hq
        simp only [decimalAsHex, hl, hr]

/-- Different numbers have different digits. -/
theorem decimalAsHex_injective {m n : Nat} (h : decimalAsHex m m = decimalAsHex n n) :
    m = n := by
  induction m using Nat.strongRecOn generalizing n with
  | ind m ih =>
    have digits : ∀ k, decimalAsHex k k
        = if k < 10 then k else decimalAsHex (k / 10) (k / 10) * 16 + k % 10 := by
      intro k
      cases k with
      | zero => simp [decimalAsHex]
      | succ k => rw [decimalAsHex, decimalAsHex_fuel (by omega)]
    have positive : ∀ k, 0 < k → 0 < decimalAsHex k k := by
      intro k
      induction k using Nat.strongRecOn with
      | ind k ihk =>
        intro hk
        rw [digits]
        split
        · exact hk
        · have hq := ihk (k / 10) (by omega) (by omega)
          omega
    rw [digits m, digits n] at h
    split at h
    · split at h
      · exact h
      · have hp := positive (n / 10) (by omega)
        omega
    · split at h
      · have hp := positive (m / 10) (by omega)
        omega
      · have hq := ih (m / 10) (by omega) (n := n / 10) (by omega)
        omega

end Uuid

theorem TableName.rowId_injective (t : TableName) {m n : Nat} (h : t.rowId m = t.rowId n) :
    m = n := by
  simp only [rowId, Uuid.ofRow, Uuid.mk.injEq] at h
  exact Uuid.decimalAsHex_injective (by omega)

namespace World

theorem lookup_filter_ne {numbers : List (TableName × Nat)} {t u : TableName} (h : u ≠ t) :
    (numbers.filter (·.1 ≠ t)).lookup u = numbers.lookup u := by
  induction numbers with
  | nil => rfl
  | cons entry rest ih =>
    by_cases he : entry.1 = t
    · have hu : (u == entry.1) = false := by simpa [he] using h
      rw [List.filter_cons_of_neg (by simpa using he), ih, List.lookup_cons, hu]
    · rw [List.filter_cons_of_pos (by simpa using he), List.lookup_cons, List.lookup_cons, ih]

theorem nextNumber_useNumber (w : World) (t u : TableName) :
    (w.useNumber t).nextNumber u = if u = t then w.nextNumber t + 1 else w.nextNumber u := by
  by_cases h : u = t
  · simp [h, nextNumber, useNumber]
  · have hu : (u == t) = false := by simpa using h
    rw [if_neg h, nextNumber, useNumber, List.lookup_cons, hu]
    simp only [lookup_filter_ne h, nextNumber]

theorem nextNumber_used (w : World) (t : TableName) :
    (w.useNumber t).nextNumber t = w.nextNumber t + 1 :=
  (w.nextNumber_useNumber t t).trans (if_pos rfl)

/-- The next number of a table depends on nothing but the numbers that were given. -/
theorem nextNumber_congr {w v : World} (h : v.numbers = w.numbers) (t : TableName) :
    v.nextNumber t = w.nextNumber t := by
  rw [nextNumber, h, nextNumber]

theorem nextNumber_le_useNumber (w : World) (t u : TableName) :
    w.nextNumber u ≤ (w.useNumber t).nextNumber u := by
  rw [nextNumber_useNumber]
  split
  · next h => rw [h]; omega
  · exact Nat.le_refl _

end World

/-! ## Rows with identifiers of their own -/

section Rows
variable {ρ : Type} {id : ρ → Uuid} {rows : List ρ} {row : ρ}

theorem ids_map {change : ρ → ρ} (hid : ∀ r ∈ rows, id (change r) = id r) :
    (rows.map change).map id = rows.map id :=
  List.map_map.trans (List.map_congr_left hid)

/-- An identifier that no row has may be added to those of the rows. -/
theorem nodup_append_new (h : (rows.map id).Nodup) (hnew : ∀ r ∈ rows, id r ≠ id row) :
    ((rows ++ [row]).map id).Nodup := by
  rw [List.map_append, List.nodup_append]
  refine ⟨h, List.nodup_singleton _, fun a ha b hb => ?_⟩
  obtain ⟨r, hr, rfl⟩ := List.mem_map.mp ha
  rw [List.mem_singleton.mp hb]
  exact hnew r hr

end Rows

/-- Identifiers of a table that differ from each other, and are of numbers that were given. -/
structure Numbered (t : TableName) (next : Nat) (ids : List Uuid) : Prop where
  distinct : ids.Nodup
  given : ∀ id ∈ ids, ∃ n < next, id = t.rowId n

namespace Numbered
variable {t : TableName} {next later : Nat} {ids : List Uuid}

theorem nil : Numbered t next [] := ⟨List.nodup_nil, fun _ h => absurd h List.not_mem_nil⟩

theorem mono (h : Numbered t next ids) (hle : next ≤ later) : Numbered t later ids where
  distinct := h.distinct
  given i hi := by
    obtain ⟨n, hn, hid⟩ := h.given i hi
    exact ⟨n, Nat.lt_of_lt_of_le hn hle, hid⟩

variable {ρ : Type} {id : ρ → Uuid} {rows : List ρ} {row : ρ}

theorem free (h : Numbered t next (rows.map id)) : ∀ r ∈ rows, id r ≠ t.rowId next := by
  intro r hr hid
  obtain ⟨n, hn, hgiven⟩ := h.given (id r) (List.mem_map_of_mem hr)
  have heq := t.rowId_injective (hgiven.symm.trans hid)
  omega

theorem eq_of_id (h : Numbered t next (rows.map id)) {r s : ρ} (hr : r ∈ rows) (hs : s ∈ rows)
    (hid : id r = id s) : r = s :=
  List.inj_on_of_nodup_map h.distinct hr hs hid

theorem add (h : Numbered t next (rows.map id)) (hnew : ∀ r ∈ rows, id r ≠ id row)
    (hgiven : ∃ n < next, id row = t.rowId n) : Numbered t next ((rows ++ [row]).map id) where
  distinct := nodup_append_new h.distinct hnew
  given i hi := by
    rw [List.map_append, List.map_singleton] at hi
    rcases List.mem_append.mp hi with hi | hi
    · exact h.given i hi
    · rw [List.mem_singleton.mp hi]
      exact hgiven

theorem append (h : Numbered t next (rows.map id)) (hid : id row = t.rowId next) :
    Numbered t (next + 1) ((rows ++ [row]).map id) :=
  (h.mono (Nat.le_succ next)).add (fun r hr => hid ▸ h.free r hr) ⟨next, Nat.lt_succ_self next, hid⟩

theorem map (h : Numbered t next (rows.map id)) {change : ρ → ρ}
    (hid : ∀ r ∈ rows, id (change r) = id r) : Numbered t next ((rows.map change).map id) :=
  (ids_map hid).symm ▸ h

end Numbered

end RecordFlow
