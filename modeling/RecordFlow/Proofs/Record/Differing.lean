import Mathlib.Data.String.Basic
import RecordFlow.Proofs.Record.Context
import RecordFlow.Proofs.Workflow.Watched

/-! # Fields that differ

The fields that are told of a write are found by looking their names up as paths. A name that stands for
itself is told exactly if what is stored under it differs, where nothing stored counts as null. What is
told is in order, and no name is told twice.
-/
namespace RecordFlow

/-! ## Order -/

theorem nodup_firstOccurrences (names : List String) : (firstOccurrences names).Nodup := by
  induction names with
  | nil => exact List.nodup_nil
  | cons name rest ih =>
    refine List.nodup_cons.mpr ⟨fun h => ?_, ih.filter _⟩
    simpa using (List.mem_filter.mp h).2

section Names
variable {before after : Record} {key : String}

theorem allFields_sorted (before after : Record) : (allFields before after).Pairwise (· < ·) := by
  unfold allFields
  dsimp only
  generalize before.fields.map Prod.fst ++ after.fields.map Prod.fst ++ SystemField.names = names
  have hle : ∀ a b : String, (!(decide (b < a))) = true ↔ a ≤ b := by
    intro a b
    rw [Bool.not_eq_true', decide_eq_false_iff_not, not_lt]
  have hsorted : (sorted (fun a b => !(decide (b < a))) (firstOccurrences names)).Pairwise (· ≤ ·) :=
    pairwise_sorted hle _
  have hnodup : (sorted (fun a b => !(decide (b < a))) (firstOccurrences names)).Nodup :=
    (sorted_perm _ _).nodup_iff.mpr (nodup_firstOccurrences names)
  exact hsorted.imp₂ (fun a b hle hne => lt_of_le_of_ne hle hne) hnodup

theorem mem_allFields : key ∈ allFields before after
    ↔ key ∈ Fields.keys before.fields ∨ key ∈ Fields.keys after.fields ∨ key ∈ SystemField.names := by
  rw [allFields, mem_sorted, mem_firstOccurrences, List.mem_append, List.mem_append, or_assoc]
  rfl

end Names

/-! ## What is stored -/

/-- A key that stands for itself as a path: it has no steps, and does not name what is seen of every
record beside its fields. -/
def IsPlainKey (key : String) : Prop :=
  '.' ∉ key.toList ∧ key ∉ ["id", "module", "created_by", "fields"]

instance : DecidablePred IsPlainKey := fun _ => inferInstanceAs (Decidable (_ ∧ _))

namespace Record
variable {r : Record} {key : String}

/-- What is stored under a key: the value of a system field, or what the other fields have; null if
there is nothing. -/
def storedAt (r : Record) (key : String) : Value :=
  match SystemField.ofName? key with
  | some f => r.system f
  | none => r.fields.getD key

theorem storedAt_put_of_ne {other : String} (v : Value) (h : other ≠ key) :
    (r.put key v).storedAt other = r.storedAt other := by
  unfold storedAt
  cases hname : SystemField.ofName? other with
  | some f =>
    have hother : key ≠ f.name := fun heq => h (heq.trans (SystemField.name_of_ofName? hname)).symm
    exact (put_system r key v f).trans (if_neg hother)
  | none =>
    dsimp only
    rw [put_fields, Fields.getD, Fields.getD]
    split
    · rw [Fields.get?_put_of_ne v r.fields h]
    · rfl

/-- What the changes do not name is stored as before. -/
theorem storedAt_merged {changes : Fields} (h : key ∉ Fields.keys changes) :
    (r.merged changes).storedAt key = r.storedAt key := by
  induction changes generalizing r with
  | nil => rfl
  | cons change rest ih =>
    obtain ⟨hfirst, hrest⟩ := not_or.mp fun hmem => h (List.mem_cons.mpr hmem)
    rw [merged_cons, ih hrest, storedAt_put_of_ne _ hfirst]

theorem storedAt_of_not_mem (hfields : key ∉ Fields.keys r.fields)
    (hsystem : key ∉ SystemField.names) : r.storedAt key = .null := by
  have hname : SystemField.ofName? key = none := by
    cases hname : SystemField.ofName? key with
    | none => rfl
    | some f =>
      rw [← SystemField.name_of_ofName? hname] at hsystem
      cases f <;> exact absurd (by decide) hsystem
  have hget : Fields.get? r.fields key = none := by
    refine List.lookup_eq_none_iff.mpr fun entry hentry => ?_
    have hne : key ≠ entry.1 := fun heq => hfields (List.mem_map.mpr ⟨entry, hentry, heq.symm⟩)
    simpa using hne
  unfold storedAt
  rw [hname, Fields.getD, hget]
  rfl

/-! ## What is seen -/

/-- What is seen of a record under a plain key is what is stored there. -/
theorem get?_context (h : IsPlainKey key) :
    (Fields.get? r.context.fields key).getD .null = r.storedAt key := by
  have hplain := h.2
  simp only [List.mem_cons, List.not_mem_nil, or_false, not_or] at hplain
  obtain ⟨hid, hmodule, hcreated, hfields⟩ := hplain
  unfold storedAt
  cases hname : SystemField.ofName? key with
  | some f =>
    obtain rfl := SystemField.name_of_ofName? hname
    cases f <;> simp [context, Value.fields, Fields.putAll, SystemField.name, system,
      Fields.get?_put_self, Fields.get?_put_of_ne]
  | none =>
    have hsystem : ∀ f : SystemField, key ≠ f.name := by
      rintro f rfl
      rw [f.ofName?_name] at hname
      cases hname
    have howner : key ≠ "owner_id" := hsystem .ownerId
    have hstage : key ≠ "stage" := hsystem .stage
    have htitle : key ≠ "title" := hsystem .title
    have hopen : key ≠ "is_open" := hsystem .isOpen
    simp [context, Value.fields, Fields.putAll, Fields.getD, Fields.get?_put_of_ne, hid, hmodule,
      hcreated, hfields, howner, hstage, htitle, hopen]

theorem resolve_plain (h : IsPlainKey key) : (r.context.resolve key).orNull = r.storedAt key := by
  have hstep : (Text.splitAll (· = '.') key.toList).map String.ofList = [key] := by
    rw [Text.splitAll_of_none fun c hc => ?_]
    · exact congrArg (fun s => [s]) String.ofList_toList
    · exact decide_eq_false fun heq => h.1 (heq ▸ hc)
  rw [← get?_context h, Value.resolve, hstep]
  show (Value.follow (.obj r.context.fields) [key]).orNull = _
  unfold Value.follow
  rw [Value.step_obj]
  cases Fields.get? r.context.fields key <;> rfl

end Record

/-! ## Paths that differ -/

theorem Lookup.orNull_of_value? {x : Lookup} {v : Value} (h : x.value? = .ok v) : x.orNull = v := by
  cases x with
  | found w => exact Except.ok.inj h
  | missing => exact Except.ok.inj h
  | unreadable cause => cases h

theorem differsAt_of_ok {v w : Value} {path : String} {differs : Bool}
    (h : differsAt v w path = .ok differs) :
    differs = !(v.resolve path).orNull.same (w.resolve path).orNull := by
  unfold differsAt at h
  cases hv : v.fieldValue path with
  | error cause => rw [hv] at h; cases h
  | ok x =>
    cases hw : w.fieldValue path with
    | error cause => rw [hv, hw] at h; cases h
    | ok y =>
      rw [hv, hw] at h
      rw [Lookup.orNull_of_value? hv, Lookup.orNull_of_value? hw]
      exact (Except.ok.inj h).symm

theorem changedPaths_of_ok {v w : Value} {paths names : List String}
    (h : changedPaths v w paths = .ok names) : names
      = paths.filter fun path => !(v.resolve path).orNull.same (w.resolve path).orNull := by
  induction paths generalizing names with
  | nil => exact (Except.ok.inj h).symm
  | cons path rest ih =>
    unfold changedPaths at h
    cases hpath : differsAt v w path with
    | error cause => rw [hpath] at h; cases h
    | ok differs =>
      cases hrest : changedPaths v w rest with
      | error cause => rw [hpath, hrest] at h; cases h
      | ok more =>
        rw [hpath, hrest] at h
        rw [List.filter_cons, ← differsAt_of_ok hpath, ← ih hrest]
        exact (Except.ok.inj h).symm

section Changed
variable {before after : Record} {names : List String}
  (h : changedPaths before.context after.context (allFields before after) = .ok names)
include h

/-- The names that are told are in order, and each is told once. -/
theorem changed_sorted : names.Pairwise (· < ·) := by
  rw [changedPaths_of_ok h]
  exact (allFields_sorted before after).filter _

/-- A plain key is told if and only if what is stored there differs. -/
theorem mem_changed_iff {key : String} (hplain : IsPlainKey key) :
    key ∈ names ↔ (before.storedAt key).same (after.storedAt key) = false := by
  rw [changedPaths_of_ok h, List.mem_filter, Record.resolve_plain hplain, Record.resolve_plain hplain,
    Bool.not_eq_true', and_iff_right_iff_imp]
  intro hdiffers
  by_contra hnone
  obtain ⟨hbefore, hrest⟩ := not_or.mp (mem_allFields.not.mp hnone)
  obtain ⟨hafter, hsystem⟩ := not_or.mp hrest
  rw [Record.storedAt_of_not_mem hbefore hsystem, Record.storedAt_of_not_mem hafter hsystem] at hdiffers
  cases hdiffers

end Changed

end RecordFlow
