import Mathlib.Data.List.Perm.Subperm
import RecordFlow.Condition.Evaluate
import RecordFlow.Proofs.Number.Line
import RecordFlow.Proofs.Record.Kept

/-! # Values of the same content

Values of the same content are alike in everything that they are compared with: each is the same as
what the other is, and has the order that the other has. This needs objects that have no key twice. Only
the missing number differs from itself: a value that does not have it anywhere is of the same content as
itself.
-/
namespace RecordFlow

theorem Fields.mem_of_get? {fields : Fields} {key : String} {v : Value}
    (h : fields.get? key = some v) : (key, v) ∈ fields := by
  obtain ⟨before, after, rfl, -⟩ := List.lookup_eq_some_iff.mp h
  simp

namespace Value

mutual
def IsKeyed : Value → Prop
  | .list items => AreKeyed items
  | .obj fields => (Fields.keys fields).Nodup ∧ FieldsKeyed fields
  | _ => True

def AreKeyed : List Value → Prop
  | [] => True
  | v :: rest => IsKeyed v ∧ AreKeyed rest

def FieldsKeyed : Fields → Prop
  | [] => True
  | (_, v) :: rest => IsKeyed v ∧ FieldsKeyed rest
end

mutual
def decideKeyed : (v : Value) → Decidable v.IsKeyed
  | .null => isTrue trivial
  | .bool _ => isTrue trivial
  | .int _ => isTrue trivial
  | .double _ => isTrue trivial
  | .str _ => isTrue trivial
  | .list items => decideAreKeyed items
  | .obj fields => @instDecidableAnd _ _ _ (decideFieldsKeyed fields)

def decideAreKeyed : (items : List Value) → Decidable (AreKeyed items)
  | [] => isTrue trivial
  | v :: rest => @instDecidableAnd _ _ (decideKeyed v) (decideAreKeyed rest)

def decideFieldsKeyed : (fields : Fields) → Decidable (FieldsKeyed fields)
  | [] => isTrue trivial
  | (_, v) :: rest => @instDecidableAnd _ _ (decideKeyed v) (decideFieldsKeyed rest)
end

instance : DecidablePred IsKeyed := decideKeyed

theorem AreKeyed.of_mem {items : List Value} (h : AreKeyed items) {v : Value} (hmem : v ∈ items) :
    v.IsKeyed := by
  induction items with
  | nil => cases hmem
  | cons item rest ih =>
    rcases List.mem_cons.mp hmem with rfl | hmem
    · exact h.1
    · exact ih h.2 hmem

theorem FieldsKeyed.of_mem {fields : Fields} (h : FieldsKeyed fields) {key : String} {v : Value}
    (hmem : (key, v) ∈ fields) : v.IsKeyed := by
  induction fields with
  | nil => cases hmem
  | cons entry rest ih =>
    rcases List.mem_cons.mp hmem with rfl | hmem
    · exact h.1
    · exact ih h.2 hmem

/-! ## Induction on values -/

/-- What is true of a list or an object if it is true of its members is true of every value. -/
@[elab_as_elim]
theorem byMembers {motive : Value → Prop} (null : motive .null) (bool : ∀ b, motive (.bool b))
    (int : ∀ n, motive (.int n)) (double : ∀ d, motive (.double d)) (str : ∀ s, motive (.str s))
    (list : ∀ xs, (∀ x ∈ xs, motive x) → motive (.list xs))
    (obj : ∀ xs, (∀ k x, (k, x) ∈ xs → motive x) → motive (.obj xs)) (v : Value) : motive v := by
  refine @Value.rec motive (fun xs => ∀ x ∈ xs, motive x)
    (fun xs => ∀ k x, (k, x) ∈ xs → motive x) (fun entry => motive entry.2)
    null bool int double str list obj ?_ ?_ ?_ ?_ ?_ v
  · exact nofun
  · intro x xs hx hxs y hy
    rcases List.mem_cons.mp hy with rfl | hy
    · exact hx
    · exact hxs y hy
  · exact nofun
  · intro entry xs hentry hxs k y hy
    rcases List.mem_cons.mp hy with rfl | hy
    · exact hentry
    · exact hxs k y hy
  · intro k x hx
    exact hx

/-! ## Kinds of values that may be the same -/

/-- Values that have a place are compared by it. -/
theorem same_of_place {v : Value} {a : Extended} (h : v.place? = some a) (w : Value) :
    v.same w = (w.place?.map a.eq).getD false := by
  cases v with
  | null | str | list | obj => cases h
  | bool | int | double =>
    rw [← Option.some.inj h, same]
    cases w.place? <;> rfl

theorem ordered?_of_place {v : Value} {a : Extended} (h : v.place? = some a)
    (op : Comparison) (w : Value) : ordered? op v w = w.place?.map (op.onPlaces a) := by
  cases v with
  | null | str | list | obj => cases h
  | bool | int | double => rw [← Option.some.inj h, ordered?]

inductive Same : Value → Value → Prop
  | null : Same .null .null
  | str (s : String) : Same (.str s) (.str s)
  | place {v w : Value} {a b : Extended} (hv : v.place? = some a) (hw : w.place? = some b)
    (h : a.eq b = true) : Same v w
  | list {xs ys : List Value} (h : sameItems xs ys = true) : Same (.list xs) (.list ys)
  | obj {xs ys : Fields} (hsize : xs.length = ys.length) (h : sameFields xs ys = true) :
    Same (.obj xs) (.obj ys)

theorem Same.of_same {v w : Value} (h : v.same w = true) : Same v w := by
  cases v with
  | null =>
    cases w with
    | null => exact .null
    | _ => cases h
  | str s =>
    cases w with
    | str t =>
      obtain rfl : s = t := by simpa [same] using h
      exact .str s
    | _ => cases h
  | list xs =>
    cases w with
    | list ys => exact .list h
    | _ => cases h
  | obj xs =>
    cases w with
    | obj ys =>
      rw [same, Bool.and_eq_true, beq_iff_eq] at h
      exact .obj h.1 h.2
    | _ => cases h
  | bool | int | double =>
    rw [same_of_place rfl] at h
    cases hw : w.place? with
    | none => rw [hw] at h; cases h
    | some b =>
      rw [hw] at h
      exact .place rfl hw h

/-! ## Likeness -/

structure Alike (v w : Value) : Prop where
  same : ∀ t, v.same t = w.same t
  ordered : ∀ op t, ordered? op v t = ordered? op w t

theorem Alike.refl (v : Value) : v.Alike v := ⟨fun _ => rfl, fun _ _ => rfl⟩

theorem Alike.of_places {v w : Value} {a b : Extended} (hv : v.place? = some a)
    (hw : w.place? = some b) (h : a.eq b = true) : v.Alike w where
  same t := by
    rw [same_of_place hv, same_of_place hw]
    cases t.place? with
    | none => rfl
    | some c => exact (Extended.alike_of_eq h c).1
  ordered op t := by
    rw [ordered?_of_place hv, ordered?_of_place hw]
    cases t.place? with
    | none => rfl
    | some c =>
      obtain ⟨heq, hlt, hgt⟩ := Extended.alike_of_eq h c
      cases op <;> simp only [Option.map_some, Comparison.onPlaces, heq, hlt, hgt]

theorem sameItems_iff {xs ys : List Value} :
    sameItems xs ys = true ↔ List.Forall₂ (fun x y => x.same y = true) xs ys := by
  induction xs generalizing ys with
  | nil => cases ys <;> simp [sameItems]
  | cons x xs ih =>
    cases ys with
    | nil => simp [sameItems]
    | cons y ys => rw [sameItems, Bool.and_eq_true, ih, List.forall₂_cons]

section Items
variable {xs ys : List Value} (h : List.Forall₂ Alike xs ys)
include h

theorem sameItems_congr (zs : List Value) : sameItems xs zs = sameItems ys zs := by
  induction h generalizing zs with
  | nil => rfl
  | cons hfirst _ ih =>
    cases zs with
    | nil => rfl
    | cons z zs => rw [sameItems, sameItems, hfirst.same, ih]

theorem orderedItems?_congr (op : Comparison) (zs : List Value) :
    orderedItems? op xs zs = orderedItems? op ys zs := by
  induction h generalizing zs with
  | nil => rfl
  | cons hfirst hrest ih =>
    cases zs with
    | nil => rw [orderedItems?, orderedItems?, List.length_cons, List.length_cons, hrest.length_eq]
    | cons z zs => rw [orderedItems?, orderedItems?, hfirst.same, hfirst.ordered, ih]

/-- Lists are alike if they are so item by item. -/
theorem Alike.of_items : (Value.list xs).Alike (.list ys) := by
  constructor
  · intro t
    cases t with
    | list zs => exact sameItems_congr h zs
    | _ => rfl
  · intro op t
    cases t with
    | list zs => exact orderedItems?_congr h op zs
    | _ => rfl

end Items

theorem sameFields_iff {xs ys : Fields} : sameFields xs ys = true
    ↔ ∀ k x, (k, x) ∈ xs → ∃ y, ys.get? k = some y ∧ x.same y = true := by
  induction xs with
  | nil => simp [sameFields]
  | cons entry rest ih =>
    obtain ⟨k, x⟩ := entry
    rw [sameFields, Bool.and_eq_true, ih]
    constructor
    · rintro ⟨hx, hrest⟩ k' x' hmem
      rcases List.mem_cons.mp hmem with heq | hmem
      · obtain ⟨rfl, rfl⟩ := Prod.mk.inj heq
        cases hy : ys.lookup k' with
        | none =>
          rw [hy] at hx
          cases hx
        | some y =>
          rw [hy] at hx
          exact ⟨y, hy, hx⟩
      · exact hrest k' x' hmem
    · intro h
      obtain ⟨y, hy, hx⟩ := h k x List.mem_cons_self
      have hfound : ys.lookup k = some y := hy
      rw [hfound]
      exact ⟨hx, fun k' x' hmem => h k' x' (List.mem_cons_of_mem _ hmem)⟩

/-- Objects are alike if they have the same keys and are so key by key. -/
theorem Alike.of_fields {xs ys : Fields} (hsize : xs.length = ys.length)
    (hxs : (Fields.keys xs).Nodup) (hys : (Fields.keys ys).Nodup)
    (h : ∀ k x, (k, x) ∈ xs → ∃ y, ys.get? k = some y ∧ x.Alike y) :
    (Value.obj xs).Alike (.obj ys) := by
  have hsub : Fields.keys xs ⊆ Fields.keys ys := by
    intro k hk
    obtain ⟨⟨k, x⟩, hx, rfl⟩ := List.mem_map.mp hk
    obtain ⟨y, hy, -⟩ := h k x hx
    exact List.mem_map.mpr ⟨(k, y), Fields.mem_of_get? hy, rfl⟩
  -- There are as many keys on both sides, so none of them is only on the right.
  have hkeys : Fields.keys ys ⊆ Fields.keys xs := by
    have hlength : (Fields.keys ys).length ≤ (Fields.keys xs).length := by
      simp [Fields.keys, hsize]
    exact ((hxs.subperm hsub).perm_of_length_le hlength).symm.subset
  have same (zs : Fields) : sameFields xs zs = sameFields ys zs := by
    rw [Bool.eq_iff_iff, sameFields_iff, sameFields_iff]
    constructor
    · intro hxs' k y hy
      obtain ⟨⟨k, x⟩, hx, rfl⟩ := List.mem_map.mp (hkeys (List.mem_map_of_mem hy))
      obtain ⟨y', hy', hlike⟩ := h k x hx
      obtain rfl : y' = y := Option.some.inj (hy'.symm.trans (Fields.get?_of_mem hys hy))
      obtain ⟨z, hz, hsame⟩ := hxs' k x hx
      exact ⟨z, hz, hlike.same z ▸ hsame⟩
    · intro hys' k x hx
      obtain ⟨y, hy, hlike⟩ := h k x hx
      obtain ⟨z, hz, hsame⟩ := hys' k y (Fields.mem_of_get? hy)
      exact ⟨z, hz, hlike.same z ▸ hsame⟩
  constructor
  · intro t
    cases t with
    | obj zs =>
      show (xs.length == zs.length && sameFields xs zs)
        = (ys.length == zs.length && sameFields ys zs)
      rw [hsize, same]
    | _ => rfl
  · intro op t
    rfl

/-- Items of the same content are alike if this is so of each of them. -/
theorem forall₂_alike {xs ys : List Value} (hxs : AreKeyed xs) (hys : AreKeyed ys)
    (h : sameItems xs ys = true)
    (each : ∀ x ∈ xs, ∀ y : Value, x.IsKeyed → y.IsKeyed → x.same y = true → x.Alike y) :
    List.Forall₂ Alike xs ys := by
  have hpairs := sameItems_iff.mp h
  clear h
  induction hpairs with
  | nil => exact .nil
  | cons hsame _ ih =>
    exact .cons (each _ List.mem_cons_self _ hxs.1 hys.1 hsame)
      (ih hxs.2 hys.2 fun x hx => each x (List.mem_cons_of_mem _ hx))

/-- Values of the same content are alike. -/
theorem alike_of_same {v w : Value} (hv : v.IsKeyed) (hw : w.IsKeyed) (h : v.same w = true) :
    v.Alike w := by
  induction v using byMembers generalizing w with
  | null =>
    cases Same.of_same h with
    | null => exact .refl _
    | place hv => cases hv
  | bool | int | double =>
    cases Same.of_same h with
    | place hv hw h => exact .of_places hv hw h
  | str s =>
    cases Same.of_same h with
    | str => exact .refl _
    | place hv => cases hv
  | list xs ih =>
    cases Same.of_same h with
    | place hv => cases hv
    | list hitems => exact .of_items (forall₂_alike hv hw hitems fun x hx y => ih x hx)
  | obj xs ih =>
    cases Same.of_same h with
    | place hv => cases hv
    | obj hsize hfields =>
      refine .of_fields hsize hv.1 hw.1 fun k x hx => ?_
      obtain ⟨y, hy, hsame⟩ := sameFields_iff.mp hfields k x hx
      exact ⟨y, hy, ih k x hx (hv.2.of_mem hx) (hw.2.of_mem (Fields.mem_of_get? hy)) hsame⟩

theorem alike_of_sameItems {xs ys : List Value} (hxs : AreKeyed xs) (hys : AreKeyed ys)
    (h : sameItems xs ys = true) : List.Forall₂ Alike xs ys :=
  forall₂_alike hxs hys h fun _ _ _ hx hy hsame => alike_of_same hx hy hsame

end Value

/-! ## Values that are the same as themselves -/

theorem Extended.eq_self_iff {x : Extended} : x.eq x = true ↔ x ≠ .unplaced := by
  cases x with
  | unplaced => exact ⟨nofun, fun h => absurd rfl h⟩
  | below | above => exact ⟨fun _ => nofun, fun _ => rfl⟩
  | point m e => exact ⟨fun _ => nofun, fun _ => beq_self_eq_true _⟩

theorem Extended.ofDouble_eq_unplaced_iff {d : Double} : ofDouble d = .unplaced ↔ d = .nan := by
  cases d with
  | nan => exact ⟨fun _ => rfl, fun _ => rfl⟩
  | infinite negative => cases negative <;> exact ⟨nofun, nofun⟩
  | finite => exact ⟨nofun, nofun⟩

namespace Value

mutual
def isDefinite : Value → Bool
  | .double d => d != .nan
  | .list items => areDefinite items
  | .obj fields => fieldsDefinite fields
  | _ => true

def areDefinite : List Value → Bool
  | [] => true
  | v :: rest => isDefinite v && areDefinite rest

def fieldsDefinite : Fields → Bool
  | [] => true
  | (_, v) :: rest => isDefinite v && fieldsDefinite rest
end

theorem isDefinite_of_mem {items : List Value} (h : areDefinite items = true) {v : Value}
    (hmem : v ∈ items) : v.isDefinite = true := by
  induction items with
  | nil => cases hmem
  | cons item rest ih =>
    rw [areDefinite, Bool.and_eq_true] at h
    rcases List.mem_cons.mp hmem with rfl | hmem
    · exact h.1
    · exact ih h.2 hmem

theorem isDefinite_of_field {fields : Fields} (h : fieldsDefinite fields = true) {key : String}
    {v : Value} (hmem : (key, v) ∈ fields) : v.isDefinite = true := by
  induction fields with
  | nil => cases hmem
  | cons entry rest ih =>
    rw [fieldsDefinite, Bool.and_eq_true] at h
    rcases List.mem_cons.mp hmem with rfl | hmem
    · exact h.1
    · exact ih h.2 hmem

theorem same_double_self_iff {d : Double} : (Value.double d).same (.double d) = true ↔ d ≠ .nan := by
  rw [same_of_place rfl]
  exact Extended.eq_self_iff.trans (not_congr Extended.ofDouble_eq_unplaced_iff)

/-- A value with no missing number is the same as itself. -/
theorem same_self {v : Value} (hkeyed : v.IsKeyed) (hv : v.isDefinite = true) :
    v.same v = true := by
  induction v using byMembers with
  | null => rfl
  | bool b =>
    rw [same_of_place rfl]
    exact (Extended.eq_self_iff (x := .ofInt (if b then 1 else 0))).mpr nofun
  | int n =>
    rw [same_of_place rfl]
    exact (Extended.eq_self_iff (x := .ofInt n)).mpr nofun
  | double d => exact same_double_self_iff.mpr (by simpa [isDefinite] using hv)
  | str s => exact beq_self_eq_true s
  | list xs ih =>
    refine sameItems_iff.mpr (List.forall₂_same.mpr fun x hx => ?_)
    exact ih x hx (AreKeyed.of_mem hkeyed hx) (isDefinite_of_mem hv hx)
  | obj xs ih =>
    rw [same, beq_self_eq_true, Bool.true_and, sameFields_iff]
    intro k x hx
    exact ⟨x, Fields.get?_of_mem hkeyed.1 hx,
      ih k x hx (hkeyed.2.of_mem hx) (isDefinite_of_field hv hx)⟩

end Value

end RecordFlow
