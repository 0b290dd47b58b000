import RecordFlow.Proofs.Condition.Leaves
import RecordFlow.Proofs.Value.Same

/-! # The order of values

The four tests of order are one order, read from either side: it never puts a value before itself, and
what is before a second value is before all that the second is before. A list is put before another by
the first items that differ, so what is proved of the items carries over to the lists; where two items do
not differ, each stands for the other. Two values of which neither is before the other need not be the
same: an object, null and the missing number have no order at all.
-/
namespace RecordFlow
namespace Value

/-! ## Reading a test from the other side -/

namespace Comparison

/-- The test that says of the second and the first what a test says of the first and the second. -/
def swap : Comparison → Comparison
  | .lt => .gt
  | .le => .ge
  | .gt => .lt
  | .ge => .le

theorem onSizes_swap (op : Comparison) (m n : Nat) : op.onSizes m n = op.swap.onSizes n m := by
  cases op <;> rfl

theorem onText_swap (op : Comparison) (s t : String) : op.onText s t = op.swap.onText t s := by
  cases op with
  | lt | gt => rfl
  | le | ge => simp only [swap, onText, Bool.beq_comm (a := s)]

theorem onPlaces_swap (op : Comparison) (x y : Extended) :
    op.onPlaces x y = op.swap.onPlaces y x := by
  cases op with
  | lt | gt => rfl
  | le | ge => simp only [swap, onPlaces, Extended.eq_comm x]

end Comparison

/-! ## Equality from either side -/

/-- Only a value that is the same as itself is the same as another one. -/
theorem same_self_of_same {v w : Value} (hv : v.IsKeyed) (h : v.same w = true) :
    v.same v = true := by
  induction v using byMembers generalizing w with
  | null => rfl
  | str s => exact beq_self_eq_true s
  | bool | int | double =>
    cases Same.of_same h with
    | place ha hb heq =>
      rw [same_of_place ha, ha, Option.map_some, Option.getD_some, (Extended.alike_of_eq heq _).1,
        Extended.eq_comm, heq]
  | list xs ih =>
    cases Same.of_same h with
    | place ha => cases ha
    | list hitems =>
      have hpairs := sameItems_iff.mp hitems
      refine sameItems_iff.mpr ?_
      clear h hitems
      induction hpairs with
      | nil => exact .nil
      | cons hxy _ ihRest =>
        exact .cons (ih _ List.mem_cons_self hv.1 hxy)
          (ihRest (fun x hx => ih x (List.mem_cons_of_mem _ hx)) hv.2)
  | obj xs ih =>
    cases Same.of_same h with
    | place ha => cases ha
    | obj _ hfields =>
      rw [same, beq_self_eq_true, Bool.true_and, sameFields_iff]
      intro k x hx
      obtain ⟨y, -, hxy⟩ := sameFields_iff.mp hfields k x hx
      exact ⟨x, Fields.get?_of_mem hv.1 hx, ih k x hx (hv.2.of_mem hx) hxy⟩

theorem same_comm {v w : Value} (hv : v.IsKeyed) (hw : w.IsKeyed) : v.same w = w.same v := by
  have turn {v w : Value} (hv : v.IsKeyed) (hw : w.IsKeyed) (h : v.same w = true) :
      w.same v = true :=
    (alike_of_same hv hw h).same v ▸ same_self_of_same hv h
  exact Bool.eq_iff_iff.mpr ⟨turn hv hw, turn hw hv⟩

/-! ## Order from either side -/

theorem orderedItems?_swap {op : Comparison} {xs ys : List Value} (hxs : AreKeyed xs)
    (hys : AreKeyed ys) (each : ∀ x ∈ xs, ∀ y : Value, x.IsKeyed → y.IsKeyed →
      ordered? op x y = ordered? op.swap y x) :
    orderedItems? op xs ys = orderedItems? op.swap ys xs := by
  induction xs generalizing ys with
  | nil =>
    cases ys with
    | nil => exact congrArg some (Comparison.onSizes_swap op 0 0)
    | cons y ys => exact congrArg some (Comparison.onSizes_swap op 0 _)
  | cons x xs ih =>
    cases ys with
    | nil => exact congrArg some (Comparison.onSizes_swap op _ 0)
    | cons y ys =>
      rw [orderedItems?, orderedItems?, same_comm hxs.1 hys.1,
        each x List.mem_cons_self y hxs.1 hys.1,
        ih hxs.2 hys.2 fun x hx => each x (List.mem_cons_of_mem _ hx)]

theorem ordered?_swap (op : Comparison) {v w : Value} (hv : v.IsKeyed) (hw : w.IsKeyed) :
    ordered? op v w = ordered? op.swap w v := by
  induction v using byMembers generalizing w with
  | null | obj => cases w <;> rfl
  | bool | int | double =>
    cases w with
    | bool | int | double => exact congrArg some (Comparison.onPlaces_swap ..)
    | null | str | list | obj => rfl
  | str s =>
    cases w with
    | str t => exact congrArg some (Comparison.onText_swap op s t)
    | _ => rfl
  | list xs ih =>
    cases w with
    | list ys => exact orderedItems?_swap hv hw fun x hx y hx' hy' => ih x hx hx' hy'
    | _ => rfl

/-! ## The order -/

def Precedes (v w : Value) : Prop := ordered? .lt v w = some true

section Alike
variable {u v w : Value} (hv : v.IsKeyed) (hw : w.IsKeyed) (h : v.same w = true)
include hv hw h

theorem Precedes.of_same_left : v.Precedes u ↔ w.Precedes u := by
  rw [Precedes, Precedes, (alike_of_same hv hw h).ordered]

theorem Precedes.of_same_right (hu : u.IsKeyed) : u.Precedes v ↔ u.Precedes w := by
  rw [Precedes, Precedes, ordered?_swap .lt hu hv, ordered?_swap .lt hu hw,
    (alike_of_same hv hw h).ordered]

end Alike

theorem orderedItems?_irrefl {xs : List Value} (each : ∀ x ∈ xs, ¬ x.Precedes x) :
    orderedItems? .lt xs xs ≠ some true := by
  induction xs with
  | nil => exact nofun
  | cons x xs ih =>
    rw [orderedItems?]
    split
    · exact ih fun x hx => each x (List.mem_cons_of_mem _ hx)
    · exact each x List.mem_cons_self

theorem Precedes.irrefl (v : Value) : ¬ v.Precedes v := by
  intro h
  induction v using byMembers with
  | null | obj => cases h
  | bool | int | double =>
    rw [Precedes, ordered?_of_place rfl, place?, Option.map_some, Comparison.onPlaces,
      Extended.lt_irrefl] at h
    cases h
  | str s => exact String.lt_irrefl s (of_decide_eq_true (Option.some.inj h))
  | list xs ih => exact orderedItems?_irrefl ih h

/-- A list is before another if it is a proper beginning of it, or if the first items that differ say
so. -/
theorem orderedItems?_cons {x y : Value} {xs ys : List Value} :
    orderedItems? .lt (x :: xs) (y :: ys) = some true
      ↔ (x.same y = true ∧ orderedItems? .lt xs ys = some true)
        ∨ (x.same y = false ∧ x.Precedes y) := by
  rw [orderedItems?]
  cases x.same y <;> simp [Precedes]

theorem orderedItems?_trans {xs ys zs : List Value} (hxs : AreKeyed xs) (hys : AreKeyed ys)
    (hzs : AreKeyed zs) (each : ∀ x ∈ xs, ∀ y z : Value, x.IsKeyed → y.IsKeyed → z.IsKeyed →
      x.Precedes y → y.Precedes z → x.Precedes z)
    (hxy : orderedItems? .lt xs ys = some true) (hyz : orderedItems? .lt ys zs = some true) :
    orderedItems? .lt xs zs = some true := by
  induction xs generalizing ys zs with
  | nil =>
    cases zs with
    | cons z zs => rfl
    | nil =>
      cases ys with
      | nil => exact hxy
      | cons y ys => cases hyz
  | cons x xs ih =>
    cases ys with
    | nil => cases hxy
    | cons y ys =>
      cases zs with
      | nil => cases hyz
      | cons z zs =>
        obtain ⟨hx, hxs⟩ := hxs
        obtain ⟨hy, hys⟩ := hys
        obtain ⟨hz, hzs⟩ := hzs
        rw [orderedItems?_cons] at hxy hyz ⊢
        obtain ⟨hxy, hrest⟩ | ⟨hxy, hless⟩ := hxy
        · have hsame : x.same z = y.same z := (alike_of_same hx hy hxy).same z
          rw [hsame, Precedes.of_same_left hx hy hxy]
          obtain ⟨hyz, hrest'⟩ | hdiffer := hyz
          · exact .inl ⟨hyz, ih hxs hys hzs
              (fun x hx => each x (List.mem_cons_of_mem _ hx)) hrest hrest'⟩
          · exact .inr hdiffer
        · obtain ⟨hyz, -⟩ | ⟨hyz, hless'⟩ := hyz
          · have hsame : x.same z = x.same y := by
              rw [same_comm hx hz, same_comm hx hy, (alike_of_same hy hz hyz).same x]
            exact .inr ⟨hsame.trans hxy, (Precedes.of_same_right hy hz hyz hx).mp hless⟩
          · have hless'' : x.Precedes z := each x List.mem_cons_self y z hx hy hz hless hless'
            refine .inr ⟨Bool.eq_false_iff.mpr fun hxz => ?_, hless''⟩
            exact Precedes.irrefl z ((Precedes.of_same_left hx hz hxz).mp hless'')

theorem Precedes.trans {u v w : Value} (hu : u.IsKeyed) (hv : v.IsKeyed) (hw : w.IsKeyed)
    (huv : u.Precedes v) (hvw : v.Precedes w) : u.Precedes w := by
  induction u using byMembers generalizing v w with
  | null | obj => cases huv
  | bool | int | double =>
    rw [Precedes, ordered?_of_place rfl] at huv ⊢
    obtain ⟨b, hb, hab⟩ := Option.map_eq_some_iff.mp huv
    rw [Precedes, ordered?_of_place hb] at hvw
    obtain ⟨c, hc, hbc⟩ := Option.map_eq_some_iff.mp hvw
    exact Option.map_eq_some_iff.mpr ⟨c, hc, Extended.lt_trans hab hbc⟩
  | str s =>
    cases v with
    | str t =>
      cases w with
      | str r =>
        have hst : s < t := of_decide_eq_true (Option.some.inj huv)
        have htr : t < r := of_decide_eq_true (Option.some.inj hvw)
        exact congrArg some (decide_eq_true (String.lt_trans hst htr))
      | _ => cases hvw
    | _ => cases huv
  | list xs ih =>
    cases v with
    | list ys =>
      cases w with
      | list zs =>
        exact orderedItems?_trans hu hv hw (fun x hx y z hx' hy' hz' => ih x hx hx' hy' hz') huv hvw
      | _ => cases hvw
    | _ => cases huv

/-! ## Equality in the order -/

def hasOrder : Value → Bool
  | .null | .obj _ => false
  | _ => true

theorem orderedItems?_ge_of_not_same {xs ys : List Value} (hdiffer : sameItems xs ys = false)
    (each : ∀ x ∈ xs, ∀ y : Value, x.same y = false → ordered? .ge x y = ordered? .gt x y) :
    orderedItems? .ge xs ys = orderedItems? .gt xs ys := by
  induction xs generalizing ys with
  | nil =>
    cases ys with
    | nil => cases hdiffer
    | cons y ys => rfl
  | cons x xs ih =>
    cases ys with
    | nil => simp [orderedItems?, Comparison.onSizes]
    | cons y ys =>
      rw [sameItems] at hdiffer
      rw [orderedItems?, orderedItems?]
      cases hxy : x.same y with
      | true =>
        rw [hxy, Bool.true_and] at hdiffer
        exact ih hdiffer fun x hx => each x (List.mem_cons_of_mem _ hx)
      | false => exact each x List.mem_cons_self y hxy

theorem ordered?_ge_of_not_same {v w : Value} (h : v.same w = false) :
    ordered? .ge v w = ordered? .gt v w := by
  induction v using byMembers generalizing w with
  | null | obj => rfl
  | bool | int | double =>
    rw [same_of_place rfl] at h
    rw [ordered?_of_place rfl, ordered?_of_place rfl]
    cases hw : w.place? with
    | none => rfl
    | some b =>
      rw [hw, Option.map_some, Option.getD_some] at h
      simp only [Option.map_some, Comparison.onPlaces, h, Bool.or_false]
  | str s =>
    cases w with
    | str t =>
      have hdiffer : (s == t) = false := h
      simp only [ordered?, Comparison.onText, hdiffer, Bool.or_false]
    | _ => rfl
  | list xs ih =>
    cases w with
    | list ys => exact orderedItems?_ge_of_not_same h fun x hx y => ih x hx
    | _ => rfl

theorem ordered?_ge_of_same {v w : Value} (hkind : v.hasOrder = true) (h : v.same w = true) :
    ordered? .ge v w = some true := by
  cases Same.of_same h with
  | null | obj => cases hkind
  | str s => simp [ordered?, Comparison.onText]
  | place hv hw heq =>
    rw [ordered?_of_place hv, hw]
    simp [Comparison.onPlaces, heq]
  | list hitems =>
    have hpairs := sameItems_iff.mp hitems
    clear h hitems
    induction hpairs with
    | nil => rfl
    | cons hxy _ ih => rw [ordered?, orderedItems?, if_pos hxy]; exact ih rfl

end Value

/-! ## Leaves that ask for an order

What the leaves for less and greater say is one order of all values, texts of numbers and days taken for
these.
-/

namespace Value
variable {u v w : Value}

theorem isKeyed_comparable (hv : v.IsKeyed) : v.comparable.IsKeyed := by
  cases v with
  | str s =>
    rw [comparable, comparableText]
    cases Number.read? s with
    | some d => trivial
    | none => cases Calendar.Date.read? s <;> trivial
  | _ => exact hv

theorem compares_lt_iff : v.compares .lt w = true ↔ v.comparable.Precedes w.comparable := by
  rw [compares, Precedes]
  cases ordered? .lt v.comparable w.comparable <;> simp

theorem compares_irrefl (v : Value) : v.compares .lt v = false :=
  Bool.eq_false_iff.mpr fun h => Precedes.irrefl _ (compares_lt_iff.mp h)

theorem compares_trans (hu : u.IsKeyed) (hv : v.IsKeyed) (hw : w.IsKeyed)
    (huv : u.compares .lt v = true) (hvw : v.compares .lt w = true) : u.compares .lt w = true :=
  compares_lt_iff.mpr ((compares_lt_iff.mp huv).trans (isKeyed_comparable hu)
    (isKeyed_comparable hv) (isKeyed_comparable hw) (compares_lt_iff.mp hvw))

theorem compares_swap (test : Comparison) (hv : v.IsKeyed) (hw : w.IsKeyed) :
    v.compares test w = w.compares test.swap v := by
  rw [compares, compares, ordered?_swap test (isKeyed_comparable hv) (isKeyed_comparable hw)]

theorem compares_ge (hkind : v.comparable.hasOrder = true) :
    v.compares .ge w = (v.compares .gt w || v.matching w) := by
  rw [compares, compares, matching]
  cases hsame : v.comparable.same w.comparable with
  | true => rw [ordered?_ge_of_same hkind hsame, Option.getD_some, Bool.or_true]
  | false => rw [ordered?_ge_of_not_same hsame, Bool.or_false]

end Value

namespace Condition
variable {r s v w : Value} {field field' : String} {previous : Option Value}

theorem holds_comparison {op : Operator} {test : Value.Comparison} (hop : op.comparison? = some test)
    (hv : r.resolve field = .found v) :
    (leaf field op w).holds r previous = v.compares test w := by
  rw [holds, hv]
  cases op with
  | gt | gte | lt | lte =>
    obtain rfl := Option.some.inj hop
    rfl
  | _ => cases hop

/-- The leaves for less and greater say one order of what they find: nothing is less than itself, what is
less than something is less than all that this is less than, either side can be asked, and a value of an
ordered kind is greater or equal if it is greater or is equal. -/
theorem holds_ordered (hv : v.IsKeyed) (hw : w.IsKeyed) (hr : r.resolve field = .found v)
    (hs : s.resolve field' = .found w) (previous previous' : Option Value) :
    (leaf field .lt v).holds r previous = false
      ∧ (∀ u : Value, u.IsKeyed → (leaf field .lt w).holds r previous = true →
          (leaf field' .lt u).holds s previous' = true → (leaf field .lt u).holds r previous = true)
      ∧ (leaf field .gt w).holds r previous = (leaf field' .lt v).holds s previous'
      ∧ (leaf field .gte w).holds r previous = (leaf field' .lte v).holds s previous'
      ∧ (v.comparable.hasOrder = true → (leaf field .gte w).holds r previous
          = ((leaf field .gt w).holds r previous || (leaf field .eq w).holds r previous)) := by
  have lt (t : Value) : (leaf field .lt t).holds r previous = v.compares .lt t :=
    holds_comparison rfl hr
  have lt' (t : Value) : (leaf field' .lt t).holds s previous' = w.compares .lt t :=
    holds_comparison rfl hs
  have gt : (leaf field .gt w).holds r previous = v.compares .gt w := holds_comparison rfl hr
  have ge : (leaf field .gte w).holds r previous = v.compares .ge w := holds_comparison rfl hr
  have le' : (leaf field' .lte v).holds s previous' = w.compares .le v := holds_comparison rfl hs
  have eq : (leaf field .eq w).holds r previous = v.matching w := by
    rw [holds, hr]
    rfl
  simp only [lt, lt', gt, ge, le', eq]
  exact ⟨Value.compares_irrefl v, fun u hu => Value.compares_trans hv hw hu,
    Value.compares_swap .gt hv hw, Value.compares_swap .ge hv hw, Value.compares_ge⟩

def readings (truth last : Value) : Value := .list [truth, .obj [("unit", .str "mm")], last]

/-- Lists are compared item by item, and what is equal in other items does not matter. -/
theorem holds_ordered_readings :
    (leaf "size" .lt (readings (.int 1) (.int 4))).holds
        (.obj [("size", readings (.bool true) (.int 3))]) none = true
      ∧ (leaf "size" .lt (.list [.int 1, .obj [("unit", .str "mm")], .int 4, .null])).holds
        (.obj [("size", readings (.bool true) (.int 3))]) none = true
      ∧ (leaf "size" .gt (readings (.bool true) (.int 3))).holds
        (.obj [("size", readings (.int 1) (.int 4))]) none = true
      ∧ (leaf "size" .gte (readings (.int 1) (.int 4))).holds
        (.obj [("size", readings (.bool true) (.int 3))]) none = false := by
  have hless : (leaf "size" .lt (readings (.int 1) (.int 4))).holds
      (.obj [("size", readings (.bool true) (.int 3))]) none = true := by decide +kernel
  have less : (Value.obj [("size", readings (.bool true) (.int 3))]).resolve "size"
      = .found (readings (.bool true) (.int 3)) := rfl
  have more : (Value.obj [("size", readings (.int 1) (.int 4))]).resolve "size"
      = .found (readings (.int 1) (.int 4)) := rfl
  obtain ⟨-, htrans, -, -, hge⟩ := holds_ordered (by decide) (by decide) less more none none
  obtain ⟨-, -, hgt, -, -⟩ := holds_ordered (by decide) (by decide) more less none none
  refine ⟨hless, htrans _ (by decide) hless (by decide +kernel), hgt.trans hless, ?_⟩
  rw [hge rfl]
  decide +kernel

end Condition

end RecordFlow
