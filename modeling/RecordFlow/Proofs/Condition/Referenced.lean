import Mathlib.Data.Option.Defs
import RecordFlow.Proofs.Condition.Ordering
import RecordFlow.Proofs.Workflow.Watched

/-! # What a condition looks at

A condition looks at nothing but what its referenced paths lead to, in the record and in what the record
was before. Two records that agree there are the same to it, whatever else differs. What agrees need not be
written alike: values of the same content agree, and so do all paths that cannot be followed.
-/
namespace RecordFlow

theorem Value.matching_comm {v w : Value} (hv : v.IsKeyed) (hw : w.IsKeyed) :
    v.matching w = w.matching v :=
  same_comm (isKeyed_comparable hv) (isKeyed_comparable hw)

namespace Lookup

/-- Two outcomes that no leaf tells apart. -/
inductive Agrees : Lookup → Lookup → Prop
  | refl (x : Lookup) : Agrees x x
  | content {v w : Value} (h : v.same w = true) : Agrees (.found v) (.found w)
  | unreadable (cause cause' : BadNumeral) : Agrees (.unreadable cause) (.unreadable cause')

namespace Agrees
variable {x y : Lookup} (h : x.Agrees y)
include h

theorem isFound : x.isFound = y.isFound := by
  cases h <;> rfl

theorem isReadable : x.isReadable = y.isReadable := by
  cases h <;> rfl

theorem matching (hx : x.orNull.IsKeyed) (hy : y.orNull.IsKeyed) (t : Value) :
    x.orNull.matching t = y.orNull.matching t := by
  cases h with
  | refl | unreadable => rfl
  | content h => exact Value.matching_of_same hx hy h t

end Agrees

end Lookup

namespace Operator
variable {op : Operator} {t : Value} {x y : Lookup}

/-- A leaf about a change is false where either path cannot be followed, or nothing is known of what was
there before. -/
theorem holds_change (hop : op.asksForChange = true) (before : Option Lookup) :
    op.holds t x before
      = (x.isReadable && before.any fun b => b.isReadable && op.holdsOfChange t x b) := by
  cases op with
  | changed | changedTo | changedFrom =>
    cases x with
    | unreadable => rfl
    | found | missing =>
      cases before with
      | none => rfl
      | some b => cases b <;> rfl
  | _ => cases hop

section Agreeing
variable (hx : x.orNull.IsKeyed) (hy : y.orNull.IsKeyed) (h : x.Agrees y)
include hx hy h

theorem holdsOfChange_of_agrees {b d : Lookup} (hb : b.orNull.IsKeyed) (hd : d.orNull.IsKeyed)
    (hbefore : b.Agrees d) : op.holdsOfChange t x b = op.holdsOfChange t y d := by
  have hchange : b.orNull.matching x.orNull = d.orNull.matching y.orNull := by
    rw [hbefore.matching hb hd, Value.matching_comm hd hx, h.matching hx hy,
      Value.matching_comm hy hd]
  unfold holdsOfChange
  rw [hchange, h.isFound, hbefore.isFound, h.matching hx hy, hbefore.matching hb hd]

theorem holds_of_agrees {p q : Option Lookup} (hp : ∀ b ∈ p, b.orNull.IsKeyed)
    (hq : ∀ d ∈ q, d.orNull.IsKeyed) (hbefore : Option.Rel Lookup.Agrees p q) :
    op.holds t x p = op.holds t y q := by
  cases hop : op.asksForChange with
  | false =>
    cases h with
    | refl => exact holds_plain hop x p q
    | unreadable => rfl
    | content h => exact holds_found_of_same hop hx hy h p q
  | true =>
    rw [holds_change hop, holds_change hop, h.isReadable]
    cases hbefore with
    | none => rfl
    | some hbd =>
      rw [Option.any_some, Option.any_some, hbd.isReadable,
        holdsOfChange_of_agrees hx hy h (hp _ rfl) (hq _ rfl) hbd]

end Agreeing

end Operator

/-! ## Records that agree -/

def Value.AgreeAt (paths : List String) (v w : Value) : Prop :=
  ∀ path ∈ paths, (v.resolve path).Agrees (w.resolve path)

namespace Condition
variable {c : Condition} {v w : Value} {p q : Option Value}

/-- No leaf of a condition tells records apart that agree where the condition looks. -/
theorem leaf_of_agreeing (hv : v.IsKeyed) (hw : w.IsKeyed) (hp : ∀ b ∈ p, b.IsKeyed)
    (hq : ∀ d ∈ q, d.IsKeyed) (hnow : Value.AgreeAt c.referenced v w)
    (hbefore : Option.Rel (Value.AgreeAt c.referenced) p q) {l : Leaf} (hl : l ∈ c.leaves) :
    l.holds v p = l.holds w q := by
  have hpath : l.field ∈ c.referenced := mem_referenced.mpr ⟨l, hl, rfl⟩
  have keyed {r : Option Value} (hr : ∀ b ∈ r, b.IsKeyed) :
      ∀ x ∈ r.map (·.resolve l.field), x.orNull.IsKeyed := by
    intro x hx
    obtain ⟨b, hb, rfl⟩ := Option.map_eq_some_iff.mp hx
    exact Value.isKeyed_follow (hr b hb) _
  refine Operator.holds_of_agrees (Value.isKeyed_follow hv _) (Value.isKeyed_follow hw _)
    (hnow _ hpath) (keyed hp) (keyed hq) ?_
  cases hbefore with
  | none => exact .none
  | some hbd => exact .some (hbd _ hpath)

/-- Two records, with what each was before, are the same to a condition if its referenced paths lead to
the same in both, now and before. -/
theorem holds_of_agreeing (hv : v.IsKeyed) (hw : w.IsKeyed) (hp : ∀ b ∈ p, b.IsKeyed)
    (hq : ∀ d ∈ q, d.IsKeyed) (hnow : Value.AgreeAt c.referenced v w)
    (hbefore : Option.Rel (Value.AgreeAt c.referenced) p q) : c.holds v p = c.holds w q := by
  have each {l : Leaf} (hl : l ∈ c.leaves) : l.holds v p = l.holds w q :=
    leaf_of_agreeing hv hw hp hq hnow hbefore hl
  exact Bool.eq_iff_iff.mpr ⟨holds_of_leaves fun l hl h => each hl ▸ h,
    holds_of_leaves fun l hl h => (each hl).symm ▸ h⟩

def largeWon : Condition :=
  .all [.leaf "status" .changedTo (.str "won"),
    .any [.leaf "amount" .gte (.int 10), .leaf "lost.reason" .notEmpty .null]]

def deal (status : String) (amount : Value) (owner : String) : Value :=
  .obj [("status", .str status), ("amount", amount), ("owner", .str owner)]

/-- It is the same to the condition whose deal it is, and how the amount is written. -/
theorem holds_of_agreeing_deals :
    largeWon.holds (deal "won" (.int 12) "ada") (some (deal "open" (.int 1) "ada")) = true
      ∧ largeWon.holds (deal "won" (.double (.finite false 3 2)) "eve")
          (some (deal "open" (.bool true) "bob")) = true := by
  have hfirst : largeWon.holds (deal "won" (.int 12) "ada") (some (deal "open" (.int 1) "ada"))
      = true := by decide +kernel
  have agree (status : String) {amount amount' : Value} (owner owner' : String)
      (h : amount.same amount' = true) :
      Value.AgreeAt largeWon.referenced (deal status amount owner) (deal status amount' owner') := by
    have hpaths : largeWon.referenced = ["status", "amount", "lost.reason"] := by decide +kernel
    rw [Value.AgreeAt, hpaths, List.forall_mem_cons, List.forall_mem_cons, List.forall_mem_singleton]
    exact ⟨.refl (.found (.str status)), .content h, .refl .missing⟩
  have hequal := holds_of_agreeing (c := largeWon) (v := deal "won" (.int 12) "ada")
    (w := deal "won" (.double (.finite false 3 2)) "eve") (p := some (deal "open" (.int 1) "ada"))
    (q := some (deal "open" (.bool true) "bob")) (by decide) (by decide)
    (by simp [deal, Value.IsKeyed, Value.FieldsKeyed, Fields.keys])
    (by simp [deal, Value.IsKeyed, Value.FieldsKeyed, Fields.keys])
    (agree "won" "ada" "eve" rfl) (.some (agree "open" "ada" "bob" rfl))
  exact ⟨hfirst, hequal.symm.trans hfirst⟩

end Condition

end RecordFlow
