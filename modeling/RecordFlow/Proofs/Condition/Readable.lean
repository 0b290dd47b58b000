import RecordFlow.Blueprint.Validation
import RecordFlow.Proofs.Number.Numeral
import RecordFlow.Proofs.Record.Context
import RecordFlow.Proofs.Workflow.Watched

/-! # Paths that can be followed

A step of digit characters is read as a position when it leads into a list. It is read in every list
if it has decimal digits only, and not too many. A path of such steps can be followed in every value,
and any other path fails in some value. Watched fields and required fields of such paths are compared
and checked without failure.
-/
namespace RecordFlow

namespace Value

/-! ## Steps -/

def steps (path : String) : List String :=
  (Text.splitAll (· = '.') path.toList).map String.ofList

/-- A step that can be taken into every list: if it has digit characters only, then decimal digits
only, and no more of them than are read. -/
def IsTakeable (segment : String) : Prop :=
  Text.allDigits segment = true →
    (∀ c ∈ segment.toList, Text.isDecimal c = true) ∧ segment.toList.length ≤ Number.numeralLimit

instance : DecidablePred IsTakeable := fun _ => inferInstanceAs (Decidable (_ → _))

variable {segment : String} {segments : List String}

theorem step_isReadable (h : IsTakeable segment) (v : Value) : (v.step segment).isReadable = true := by
  cases v with
  | null | bool | int | double | str => rfl
  | obj fields =>
    rw [step_obj]
    cases Fields.get? fields segment <;> rfl
  | list items =>
    unfold step
    by_cases hdigits : Text.allDigits segment = true
    · obtain ⟨n, hn⟩ := (Number.readWhole_digits hdigits).mpr (h hdigits)
      simp only [hdigits, if_true, hn]
      cases items[n.toNat]? <;> rfl
    · simp only [hdigits]
      rfl

/-- A step that is not takeable fails in a list. -/
theorem step_list_unreadable (h : ¬ IsTakeable segment) (items : List Value) :
    ((Value.list items).step segment).isReadable = false := by
  obtain ⟨hdigits, hbad⟩ := Classical.not_imp.mp h
  unfold step
  simp only [hdigits, if_true]
  cases hread : Number.readWhole 10 segment with
  | ok n => exact absurd ((Number.readWhole_digits hdigits).mp ⟨n, hread⟩) hbad
  | error cause => rfl

/-! ## Paths -/

theorem follow_isReadable (h : ∀ segment ∈ segments, IsTakeable segment) (v : Value) :
    (v.follow segments).isReadable = true := by
  induction segments generalizing v with
  | nil => rfl
  | cons segment rest ih =>
    have hstep := step_isReadable (h segment List.mem_cons_self) v
    unfold follow
    cases hnext : v.step segment with
    | found w => exact ih (fun s hs => h s (List.mem_cons_of_mem segment hs)) w
    | missing => rfl
    | unreadable cause =>
      rw [hnext] at hstep
      cases hstep

/-- Where a step is not takeable, objects lead to a list there. -/
theorem exists_unreadable (h : ¬ ∀ segment ∈ segments, IsTakeable segment) :
    ∃ v : Value, (v.follow segments).isReadable = false := by
  induction segments with
  | nil => exact absurd nofun h
  | cons segment rest ih =>
    by_cases hfirst : IsTakeable segment
    · obtain ⟨v, hv⟩ := ih fun hrest => h (List.forall_mem_cons.mpr ⟨hfirst, hrest⟩)
      refine ⟨.obj [(segment, v)], ?_⟩
      have hstep : (Value.obj [(segment, v)]).step segment = .found v := by
        rw [step_obj, Fields.get?, List.lookup_cons_self]
        rfl
      unfold follow
      rw [hstep]
      exact hv
    · refine ⟨.list [], ?_⟩
      have hstep := step_list_unreadable hfirst []
      unfold follow
      cases hnext : (Value.list []).step segment with
      | unreadable cause => rfl
      | found | missing =>
        rw [hnext] at hstep
        cases hstep

/-- A path can be followed in every value if and only if all its steps are takeable. -/
theorem resolve_isReadable_iff {path : String} :
    (∀ v : Value, (v.resolve path).isReadable = true) ↔ ∀ segment ∈ steps path, IsTakeable segment := by
  constructor
  · intro h
    by_contra hbad
    obtain ⟨v, hv⟩ := exists_unreadable hbad
    exact absurd (h v) (by rw [resolve, ← steps, hv]; decide)
  · exact fun h v => follow_isReadable h v

/-- A superscript is a digit character, but writes no position. -/
example : ((Value.obj [("tags", .list [.str "x"])]).resolve "tags.²").isReadable = false := by
  decide +kernel

/-- At a path that can be followed there is a value or null. -/
theorem fieldValue_eq {path : String} (h : ∀ segment ∈ steps path, IsTakeable segment) (v : Value) :
    v.fieldValue path = .ok (v.resolve path).orNull :=
  Lookup.value?_of_isReadable (resolve_isReadable_iff.mpr h v)

end Value

/-! ## Watched and required fields -/

namespace Workflow
variable {w : Workflow} {before after : Record} {paths : List String}

section Watched
variable (hpaths : w.watchedPaths before after = .ok (paths.map .str))
  (h : ∀ path ∈ paths, ∀ segment ∈ Value.steps path, Value.IsTakeable segment)
include hpaths h

/-- A change of watched fields is noticed without failure. -/
theorem watchedChange_takeable : w.watchedChange after (some before) = .ok (paths.any fun path =>
    !(after.context.resolve path).orNull.same (before.context.resolve path).orNull) := by
  unfold watchedChange
  simp only [hpaths]
  exact differsAtAny_eq fun path hpath =>
    ⟨Value.resolve_isReadable_iff.mpr (h path hpath) _,
      Value.resolve_isReadable_iff.mpr (h path hpath) _⟩

theorem matchesRecord_takeable : ∃ runs, w.matchesRecord after (some before) = .ok runs := by
  unfold matchesRecord
  split
  · rw [watchedChange_takeable hpaths h]
    exact ⟨_, rfl⟩
  · exact ⟨_, rfl⟩

end Watched

end Workflow

/-- Required fields are checked without failure. -/
theorem unmetFields_takeable {requirements : List FieldRequirement}
    (h : ∀ r ∈ requirements, ∀ segment ∈ Value.steps r.field, Value.IsTakeable segment)
    (context : Value) : unmetFields context requirements = .ok ((requirements.filter fun r =>
      Condition.holds? context none r.condition && (context.resolve r.field).orNull.isBlank).map
        FieldRequirement.field) := by
  induction requirements with
  | nil => rfl
  | cons r rest ih =>
    have hunmet : r.isUnmet context = .ok (Condition.holds? context none r.condition
        && (context.resolve r.field).orNull.isBlank) := by
      unfold FieldRequirement.isUnmet
      rw [Value.fieldValue_eq (h r List.mem_cons_self)]
      split
      · next hholds => rw [hholds]; rfl
      · next hholds => rw [Bool.not_eq_true _ |>.mp hholds]; rfl
    have hrest := ih fun r' hr' => h r' (List.mem_cons_of_mem r hr')
    unfold unmetFields
    rw [hunmet, hrest, List.filter_cons]
    cases Condition.holds? context none r.condition
      && (context.resolve r.field).orNull.isBlank <;> rfl

end RecordFlow
