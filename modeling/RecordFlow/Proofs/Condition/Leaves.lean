import RecordFlow.Condition.Evaluate
import RecordFlow.Proofs.Value.Same

/-! # Leaves that turn true

A condition that was false and is true has a leaf that was false and is true. Of a leaf that does
not ask for changes this takes a value of another content, but for one case: a comparison with the
target is false of what is missing, and may be true of null.
-/
namespace RecordFlow

/-! ## Tests of values of the same content -/

namespace Value
variable {v w : Value}

/-- Booleans and numbers are not blank, have no parts, and are compared as they are. -/
theorem of_place {a : Extended} (h : v.place? = some a) : v.isBlank = false
    ∧ (∀ t, v.containing? t = none ∧ v.startsWith t = false ∧ v.endsWith t = false)
    ∧ v.comparable = v := by
  cases v with
  | bool | int | double => exact ⟨rfl, fun t => ⟨rfl, rfl, rfl⟩, rfl⟩
  | null | str | list | obj => cases h

theorem isBlank_of_same (h : v.same w = true) : v.isBlank = w.isBlank := by
  cases Same.of_same h with
  | null | str => rfl
  | place hv hw _ => rw [(of_place hv).1, (of_place hw).1]
  | list hitems =>
    have hlength := (sameItems_iff.mp hitems).length_eq
    rw [isBlank, isBlank, Bool.eq_iff_iff, List.isEmpty_iff_length_eq_zero,
      List.isEmpty_iff_length_eq_zero, hlength]
  | obj hsize _ =>
    rw [isBlank, isBlank, Bool.eq_iff_iff, List.isEmpty_iff_length_eq_zero,
      List.isEmpty_iff_length_eq_zero, hsize]

/-- Nothing but text starts or ends with anything. -/
theorem startsWith_of_same (h : v.same w = true) (t : Value) :
    v.startsWith t = w.startsWith t ∧ v.endsWith t = w.endsWith t := by
  cases Same.of_same h with
  | null | str | list | obj => exact ⟨rfl, rfl⟩
  | place hv hw _ =>
    obtain ⟨-, hstart, hend⟩ := (of_place hv).2.1 t
    obtain ⟨-, hstart', hend'⟩ := (of_place hw).2.1 t
    exact ⟨hstart.trans hstart'.symm, hend.trans hend'.symm⟩

theorem any_same_of_alike {xs ys : List Value} (h : List.Forall₂ Alike xs ys) (t : Value) :
    xs.any (·.same t) = ys.any (·.same t) := by
  induction h with
  | nil => rfl
  | cons hfirst _ ih => rw [List.any_cons, List.any_cons, hfirst.same, ih]

section Keyed
variable (hv : v.IsKeyed) (hw : w.IsKeyed) (h : v.same w = true)
include hv hw h

theorem comparable_alike : v.comparable.Alike w.comparable := by
  cases Same.of_same h with
  | str s => exact .refl _
  | null => exact .refl _
  | list | obj => exact alike_of_same hv hw h
  | place hv hw heq =>
    rw [(of_place hv).2.2, (of_place hw).2.2]
    exact .of_places hv hw heq

theorem matching_of_same (t : Value) : v.matching t = w.matching t :=
  (comparable_alike hv hw h).same t.comparable

theorem compares_of_same (op : Comparison) (t : Value) : v.compares op t = w.compares op t := by
  rw [compares, compares, (comparable_alike hv hw h).ordered]

theorem among?_of_same (t : Value) : v.among? t = w.among? t := by
  cases t with
  | list items => simp only [among?, matching_of_same hv hw h]
  | _ => rfl

theorem containing?_of_same (t : Value) : v.containing? t = w.containing? t := by
  cases Same.of_same h with
  | null | str | obj => rfl
  | place hv hw _ => rw [((of_place hv).2.1 t).1, ((of_place hw).2.1 t).1]
  | list hitems =>
    exact congrArg some (any_same_of_alike (alike_of_sameItems hv hw hitems) t)

end Keyed

end Value

/-! ## A leaf by itself -/

/-- Whether a path could be followed, though it may lead to nothing. -/
def Lookup.isReadable : Lookup → Bool
  | .unreadable _ => false
  | _ => true

namespace Operator
open Value (Comparison)

def asksForChange : Operator → Bool
  | .changed | .changedTo | .changedFrom => true
  | _ => false

def isEquation : Operator → Bool
  | .eq | .ne | .isIn | .notIn => true
  | _ => false

variable {op : Operator} {t : Value}

theorem holdsOfValue_of_same {v w : Value} (hv : v.IsKeyed) (hw : w.IsKeyed)
    (h : v.same w = true) : op.holdsOfValue t v = op.holdsOfValue t w := by
  have hmatching := Value.matching_of_same hv hw h t
  have hamong := Value.among?_of_same hv hw h t
  have hcontaining := Value.containing?_of_same hv hw h t
  obtain ⟨hstart, hend⟩ := Value.startsWith_of_same h t
  have hcompares (test : Comparison) := Value.compares_of_same hv hw h test t
  cases op <;> simp only [holdsOfValue, comparison?, hmatching, hamong, hcontaining, hstart, hend,
    hcompares]

section Plain
variable (hop : op.asksForChange = false)
include hop

theorem holds_found_of_same {v w : Value} (hv : v.IsKeyed) (hw : w.IsKeyed) (h : v.same w = true)
    (p q : Option Lookup) : op.holds t (.found v) p = op.holds t (.found w) q := by
  have hblank : v.isBlank = w.isBlank := Value.isBlank_of_same h
  have hvalue : op.holdsOfValue t v = op.holdsOfValue t w := holdsOfValue_of_same hv hw h
  cases op with
  | changed | changedTo | changedFrom => cases hop
  | isEmpty => exact hblank
  | notEmpty => exact congrArg (!·) hblank
  | _ => exact hvalue

/-- What was there before does not matter to a leaf that does not ask for it. -/
theorem holds_plain (x : Lookup) (p q : Option Lookup) : op.holds t x p = op.holds t x q := by
  cases x with
  | unreadable => rfl
  | found | missing =>
    cases op with
    | changed | changedTo | changedFrom => cases hop
    | _ => rfl

theorem holds_missing (before : Option Lookup) :
    op.holds t .missing before = decide (op = .isEmpty) := by
  cases op with
  | changed | changedTo | changedFrom => cases hop
  | _ => rfl

/-- A leaf that turns true without a change of content is an equation, with null in the place of
nothing. -/
theorem of_turned {x y : Lookup} {p q : Option Lookup} (hx : x.isReadable = true)
    (hy : y.isReadable = true) (hx' : x.orNull.IsKeyed) (hy' : y.orNull.IsKeyed)
    (hsame : y.orNull.same x.orNull = true) (hoff : op.holds t x p = false)
    (hon : op.holds t y q = true) :
    op.isEquation = true ∧ x = .missing ∧ y = .found .null := by
  cases y with
  | unreadable => cases hy
  | missing =>
    rw [holds_missing hop, decide_eq_true_eq] at hon
    subst hon
    cases x with
    | unreadable => cases hx
    | missing => cases hoff
    | found v =>
      have hblank : v.isBlank = true := (Value.isBlank_of_same hsame).symm
      change v.isBlank = false at hoff
      rw [hblank] at hoff
      cases hoff
  | found w =>
    cases x with
    | unreadable => cases hx
    | found v =>
      have hfound : op.holds t (.found w) q = op.holds t (.found v) p :=
        holds_found_of_same hop hy' hx' hsame q p
      rw [hfound, hoff] at hon
      cases hon
    | missing =>
      obtain rfl : w = .null := by
        cases Value.Same.of_same hsame with
        | null => rfl
        | place _ hnull _ => cases hnull
      have hequation : op.isEquation = true := by
        cases op with
        | eq | ne | isIn | notIn => rfl
        | changed | changedTo | changedFrom => cases hop
        | isEmpty => cases hoff
        -- Null has no parts and no order.
        | _ => exact absurd hon Bool.false_ne_true
      exact ⟨hequation, rfl, rfl⟩

end Plain

end Operator

/-! ## Leaves of a tree -/

namespace Condition

structure Leaf where
  field : String
  op : Operator
  target : Value

def Leaf.holds (l : Leaf) (record : Value) (previous : Option Value) : Bool :=
  l.op.holds l.target (record.resolve l.field) (previous.map (·.resolve l.field))

mutual
def leaves : Condition → List Leaf
  | .leaf field op target => [⟨field, op, target⟩]
  | .all parts => leavesAll parts
  | .any parts => leavesAll parts

def leavesAll : List Condition → List Leaf
  | [] => []
  | c :: rest => leaves c ++ leavesAll rest
end

mutual
theorem paths_eq : ∀ c : Condition, c.paths = c.leaves.map Leaf.field
  | .leaf _ _ _ => rfl
  | .all parts => pathsAll_eq parts
  | .any parts => pathsAll_eq parts

theorem pathsAll_eq : ∀ parts : List Condition, pathsAll parts = (leavesAll parts).map Leaf.field
  | [] => rfl
  | c :: rest => by rw [pathsAll, leavesAll, List.map_append, paths_eq c, pathsAll_eq rest]
end

section Mono
variable {v w : Value} {p q : Option Value}

mutual
/-- A tree that holds goes on to hold where all its leaves that hold go on to. -/
theorem holds_of_leaves : ∀ {c : Condition},
    (∀ l ∈ c.leaves, l.holds v p = true → l.holds w q = true) →
    c.holds v p = true → c.holds w q = true
  | .leaf field op target, h, hc => h ⟨field, op, target⟩ (List.mem_singleton_self _) hc
  | .all _, h, hc => holdsAll_of_leaves h hc
  | .any _, h, hc => holdsAny_of_leaves h hc

theorem holdsAll_of_leaves : ∀ {parts : List Condition},
    (∀ l ∈ leavesAll parts, l.holds v p = true → l.holds w q = true) →
    holdsAll v p parts = true → holdsAll w q parts = true
  | [], _, _ => rfl
  | c :: rest, h, hc => by
    rw [holdsAll, Bool.and_eq_true] at hc ⊢
    exact ⟨holds_of_leaves (fun l hl => h l (List.mem_append_left _ hl)) hc.1,
      holdsAll_of_leaves (fun l hl => h l (List.mem_append_right _ hl)) hc.2⟩

theorem holdsAny_of_leaves : ∀ {parts : List Condition},
    (∀ l ∈ leavesAll parts, l.holds v p = true → l.holds w q = true) →
    holdsAny v p parts = true → holdsAny w q parts = true
  | [], _, hc => nomatch hc
  | c :: rest, h, hc => by
    rw [holdsAny, Bool.or_eq_true] at hc ⊢
    rcases hc with hc | hc
    · exact .inl (holds_of_leaves (fun l hl => h l (List.mem_append_left _ hl)) hc)
    · exact .inr (holdsAny_of_leaves (fun l hl => h l (List.mem_append_right _ hl)) hc)
end

/-- What a record was before does not matter to a tree that does not ask for it. -/
theorem holds_plain {c : Condition} (hplain : ∀ l ∈ c.leaves, l.op.asksForChange = false) :
    c.holds v p = c.holds v q := by
  have each {p q : Option Value} (h : c.holds v p = true) : c.holds v q = true := by
    refine holds_of_leaves (fun l hl hp => ?_) h
    rw [← hp]
    exact Operator.holds_plain (hplain l hl) ..
  exact Bool.eq_iff_iff.mpr ⟨each, each⟩

def Leaf.Turns (l : Leaf) (v w : Value) : Prop := l.holds v none = false ∧ l.holds w none = true

/-- A tree that was false and is true has a leaf that was false and is true. -/
theorem exists_turned {c : Condition} (hoff : c.holds v none = false)
    (hon : c.holds w none = true) : ∃ l ∈ c.leaves, l.Turns v w := by
  by_contra hnone
  have hback : ∀ l ∈ c.leaves, l.holds w none = true → l.holds v none = true := by
    intro l hl hw
    by_contra hv
    exact hnone ⟨l, hl, by simpa using hv, hw⟩
  rw [holds_of_leaves hback hon] at hoff
  cases hoff

end Mono

end Condition

end RecordFlow
