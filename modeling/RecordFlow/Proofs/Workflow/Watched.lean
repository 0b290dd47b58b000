import RecordFlow.Proofs.Condition.Leaves
import RecordFlow.Workflow.Trigger

/-! # Changes that a workflow watches for

A workflow that names no fields watches those of its condition. So it is told when its condition
turns true, but for an equation that turns true as null takes the place of nothing: this is no change.
-/
namespace RecordFlow

/-! ## Values at paths -/

namespace Value
variable {v w : Value}

theorem isKeyed_of_step {segment : String} (hv : v.IsKeyed) (h : v.step segment = .found w) :
    w.IsKeyed := by
  unfold step at h
  split at h
  · split at h
    · next hget =>
      cases h
      exact hv.2.of_mem (Fields.mem_of_get? hget)
    · cases h
  · split at h
    · split at h
      · split at h
        · next hget =>
          cases h
          exact AreKeyed.of_mem hv (List.mem_of_getElem? hget)
        · cases h
      · cases h
    · cases h
  · cases h

theorem isKeyed_follow (hv : v.IsKeyed) (segments : List String) :
    (v.follow segments).orNull.IsKeyed := by
  induction segments generalizing v with
  | nil => exact hv
  | cons segment rest ih =>
    unfold follow
    cases hstep : v.step segment with
    | found w => exact ih (isKeyed_of_step hv hstep)
    | missing => trivial
    | unreadable cause => trivial

end Value

theorem Lookup.value?_of_isReadable {x : Lookup} (h : x.isReadable = true) :
    x.value? = .ok x.orNull := by
  cases x with
  | unreadable => cases h
  | _ => rfl

variable {v w : Value}

def AreReadable (v w : Value) (path : String) : Prop :=
  (v.resolve path).isReadable = true ∧ (w.resolve path).isReadable = true

instance (path : String) : Decidable (AreReadable v w path) := inferInstanceAs (Decidable (_ ∧ _))

theorem differsAt_eq {path : String} (h : AreReadable v w path) :
    differsAt v w path = .ok !(v.resolve path).orNull.same (w.resolve path).orNull := by
  unfold differsAt Value.fieldValue
  rw [Lookup.value?_of_isReadable h.1, Lookup.value?_of_isReadable h.2]
  rfl

theorem differsAtAny_eq {paths : List String} (h : ∀ path ∈ paths, AreReadable v w path) :
    differsAtAny v w (paths.map .str)
      = .ok (paths.any fun path => !(v.resolve path).orNull.same (w.resolve path).orNull) := by
  induction paths with
  | nil => rfl
  | cons path rest ih =>
    have hrest := ih fun path' hpath => h path' (List.mem_cons_of_mem _ hpath)
    rw [List.map_cons, differsAtAny, differsAt_eq (h path List.mem_cons_self), List.any_cons]
    cases (v.resolve path).orNull.same (w.resolve path).orNull with
    | true => exact hrest
    | false => rfl

theorem mem_firstOccurrences {s : String} {names : List String} :
    s ∈ firstOccurrences names ↔ s ∈ names := by
  induction names with
  | nil => rfl
  | cons name rest ih =>
    rw [firstOccurrences, List.mem_cons, List.mem_cons, List.mem_filter, ih]
    by_cases h : s = name
    · simp [h]
    · simp [h]

theorem Condition.mem_referenced {c : Condition} {path : String} :
    path ∈ c.referenced ↔ ∃ l ∈ c.leaves, l.field = path := by
  rw [referenced, mem_firstOccurrences, c.paths_eq, List.mem_map]

/-! ## Watching -/

namespace Workflow
variable {w : Workflow} {before after : Record} {c : Condition}

/-- A workflow that names no fields watches those of its condition. -/
theorem watchedPaths_eq (hnamed : (w.config.getD "watch_fields").isFalsy = true)
    (hc : w.conditions = some c) (hsome : c.referenced ≠ []) :
    w.watchedPaths before after = .ok (c.referenced.map .str) := by
  have hitems : (w.config.getD "watch_fields").items = .ok [] := by
    unfold Value.items
    rw [if_pos hnamed]
  have hempty : c.referenced.isEmpty = false := by simpa using hsome
  unfold watchedPaths
  rw [hitems, hc]
  simp only [Option.map_some, Option.getD_some, hempty]
  rfl

/-- A leaf that turns true as null takes the place of nothing, by a comparison with its target. -/
def IsUnheard (before after : Record) (l : Condition.Leaf) : Prop :=
  l.op.isEquation = true ∧ before.context.resolve l.field = .missing
    ∧ after.context.resolve l.field = .found .null

theorem watchedChange_eq (hnamed : (w.config.getD "watch_fields").isFalsy = true)
    (hc : w.conditions = some c) (hsome : c.referenced ≠ [])
    (hreadable : ∀ path ∈ c.referenced, AreReadable after.context before.context path) :
    w.watchedChange after (some before) = .ok (c.referenced.any fun path =>
      !(after.context.resolve path).orNull.same (before.context.resolve path).orNull) := by
  unfold watchedChange
  simp only [watchedPaths_eq hnamed hc hsome]
  exact differsAtAny_eq hreadable

/-- A workflow that waits for a change of the fields that its condition looks at runs when the
condition turns true. It is not told of the change only if all leaves that turn true do so as null
takes the place of nothing. -/
theorem watchedChange_of_turned (htrigger : w.trigger = .onFieldChange)
    (hnamed : (w.config.getD "watch_fields").isFalsy = true) (hc : w.conditions = some c)
    (hplain : ∀ l ∈ c.leaves, l.op.asksForChange = false)
    (hbefore : before.context.IsKeyed) (hafter : after.context.IsKeyed)
    (hreadable : ∀ l ∈ c.leaves, AreReadable after.context before.context l.field)
    {p q : Option Value} (hoff : c.holds before.context p = false)
    (hon : c.holds after.context q = true) :
    w.watchedChange after (some before) = .ok true
        ∧ w.matchesRecord after (some before) = .ok true
      ∨ w.watchedChange after (some before) = .ok false
        ∧ (∃ l ∈ c.leaves, l.Turns before.context after.context)
        ∧ ∀ l ∈ c.leaves, l.Turns before.context after.context → IsUnheard before after l := by
  obtain ⟨l, hl, hturns⟩ := Condition.exists_turned
    (Condition.holds_plain hplain ▸ hoff) (Condition.holds_plain hplain ▸ hon)
  have hsome : c.referenced ≠ [] := List.ne_nil_of_mem (Condition.mem_referenced.mpr ⟨l, hl, rfl⟩)
  have hreadable' : ∀ path ∈ c.referenced, AreReadable after.context before.context path := by
    intro path hpath
    obtain ⟨l, hl, rfl⟩ := Condition.mem_referenced.mp hpath
    exact hreadable l hl
  have hchange := watchedChange_eq hnamed hc hsome hreadable'
  cases hany : c.referenced.any fun path =>
      !(after.context.resolve path).orNull.same (before.context.resolve path).orNull with
  | true =>
    rw [hany] at hchange
    refine .inl ⟨hchange, ?_⟩
    have hholds : c.holds after.context (some before.context) = true :=
      (Condition.holds_plain hplain).trans hon
    unfold matchesRecord
    rw [if_pos htrigger, hchange, hc]
    exact congrArg Except.ok hholds
  | false =>
    rw [hany] at hchange
    refine .inr ⟨hchange, ⟨l, hl, hturns⟩, fun l hl hturns => ?_⟩
    have hsame : (after.context.resolve l.field).orNull.same
        (before.context.resolve l.field).orNull = true := by
      simpa using List.any_eq_false.mp hany l.field (Condition.mem_referenced.mpr ⟨l, hl, rfl⟩)
    exact Operator.of_turned (hplain l hl) (hreadable l hl).2 (hreadable l hl).1
      (Value.isKeyed_follow hbefore _) (Value.isKeyed_follow hafter _) hsame hturns.1 hturns.2

def outside : Condition := .leaf "region" .ne (.str "EU")

def watching : Workflow :=
  ⟨none, "Watch", "deals", .onFieldChange, [], some outside, [], true, true, none, none⟩

def dealWith (fields : Fields) : Record :=
  ⟨⟨1⟩, .str "deals", .null, .null, fields, 1, .null, .null, .bool true⟩

def inside : Record := dealWith [("region", .str "EU")]
def abroad : Record := dealWith [("region", .str "US")]
def nowhere : Record := dealWith []
def cleared : Record := dealWith [("region", .null)]

/-- A deal that moves out of the region is told of. -/
theorem watchedChange_of_moved :
    watching.watchedChange abroad (some inside) = .ok true
      ∧ watching.matchesRecord abroad (some inside) = .ok true := by
  have hplain : ∀ l ∈ outside.leaves, l.op.asksForChange = false := by decide
  have hreadable : ∀ l ∈ outside.leaves, AreReadable abroad.context inside.context l.field := by
    decide +kernel
  have hoff : outside.holds inside.context none = false := by decide +kernel
  have hon : outside.holds abroad.context none = true := by decide +kernel
  rcases watchedChange_of_turned (w := watching) rfl (by decide) rfl hplain (by decide +kernel)
    (by decide +kernel) hreadable hoff hon with h | ⟨h, -⟩
  · exact h
  · exact absurd h (by decide +kernel)

/-- One that had no region and is told to have none is not. -/
theorem watchedChange_of_cleared : ¬ ∀ (w : Workflow) (c : Condition) (before after : Record),
    w.trigger = .onFieldChange → (w.config.getD "watch_fields").isFalsy = true →
    w.conditions = some c → (∀ l ∈ c.leaves, l.op.asksForChange = false) →
    c.holds before.context none = false → c.holds after.context none = true →
    w.watchedChange after (some before) = .ok true := by
  intro h
  have hplain : ∀ l ∈ outside.leaves, l.op.asksForChange = false := by decide
  have hoff : outside.holds nowhere.context none = false := by decide +kernel
  have hon : outside.holds cleared.context none = true := by decide +kernel
  have hunheard : watching.watchedChange cleared (some nowhere) = .ok false := by decide +kernel
  have htold := h watching outside nowhere cleared rfl (by decide) rfl hplain hoff hon
  rw [hunheard] at htold
  cases htold

end Workflow

end RecordFlow
