import RecordFlow.Action.Mutation
import RecordFlow.Condition.Evaluate
import RecordFlow.Proofs.Record.Write

/-! # What is seen of a record

A record in another stage looks the same, but for what is seen of its stage. Text without placeholders
looks the same wherever it is rendered.
-/
namespace RecordFlow

namespace Text

theorem splitAll_ne_nil (isSeparator : Char → Bool) (cs : List Char) :
    splitAll isSeparator cs ≠ [] := by
  cases cs with
  | nil => exact nofun
  | cons c rest =>
    unfold splitAll
    split
    · exact nofun
    · split <;> exact nofun

theorem splitAll_of_none {isSeparator : Char → Bool} {cs : List Char}
    (h : ∀ c ∈ cs, isSeparator c = false) : splitAll isSeparator cs = [cs] := by
  induction cs with
  | nil => rfl
  | cons c rest ih =>
    have hfirst := h c List.mem_cons_self
    have hrest := ih fun d hd => h d (List.mem_cons_of_mem c hd)
    unfold splitAll
    rw [hfirst, hrest]
    rfl

end Text

namespace Fields

theorem get?_put_congr {fields fields' : Fields} {key : String} (name : String) (v : Value)
    (h : key ≠ name → get? fields key = get? fields' key) :
    get? (put name v fields) key = get? (put name v fields') key := by
  by_cases hname : key = name
  · rw [hname, get?_put_self, get?_put_self]
  · rw [get?_put_of_ne v fields hname, get?_put_of_ne v fields' hname, h hname]

end Fields

theorem Value.step_obj (fields : Fields) (key : String) :
    (Value.obj fields).step key = (Fields.get? fields key).elim .missing .found := by
  simp only [step]
  cases Fields.get? fields key with
  | none => rfl
  | some v => rfl

theorem Value.step_obj_congr {fields fields' : Fields} {key : String}
    (h : Fields.get? fields key = Fields.get? fields' key) :
    (Value.obj fields).step key = (Value.obj fields').step key := by
  rw [step_obj, step_obj, h]

namespace Record
variable {r : Record} {stage : Value} {key : String}

theorem step_put_stage (h : key ≠ "stage") :
    (r.put "stage" stage).context.step key = r.context.step key := by
  have same : Fields.get? (r.put "stage" stage).context.fields key
      = Fields.get? r.context.fields key := by
    refine Fields.get?_put_congr "fields" _ fun _ => ?_
    refine Fields.get?_put_congr "is_open" _ fun _ => ?_
    refine Fields.get?_put_congr "title" _ fun _ => ?_
    refine Fields.get?_put_congr "created_by" _ fun _ => ?_
    rw [Fields.get?_put_of_ne _ _ h, Fields.get?_put_of_ne _ _ h]
    rfl
  exact Value.step_obj_congr same

theorem step_stage (r : Record) : r.context.step "stage" = .found r.stage := by
  have hget : Fields.get? r.context.fields "stage" = some r.stage := by
    refine (Fields.get?_put_of_ne _ _ (show "stage" ≠ "fields" by decide)).trans ?_
    refine (Fields.get?_put_of_ne _ _ (show "stage" ≠ "is_open" by decide)).trans ?_
    refine (Fields.get?_put_of_ne _ _ (show "stage" ≠ "title" by decide)).trans ?_
    refine (Fields.get?_put_of_ne _ _ (show "stage" ≠ "created_by" by decide)).trans ?_
    exact Fields.get?_put_self _ _ _
  calc r.context.step "stage"
      = (Fields.get? r.context.fields "stage").elim .missing .found := Value.step_obj _ _
    _ = .found r.stage := by rw [hget, Option.elim_some]

/-- What is filled in a record is filled in another stage too, or it is the stage. -/
theorem filled_put_stage (stage : Value) {path : String} {v : Value} (htext : ∃ s, r.stage = .ofOption s)
    (h : r.context.fieldValue path = .ok v) (hfilled : v.isBlank = false) :
    (r.put "stage" stage).context.fieldValue path = .ok v
      ∨ (r.put "stage" stage).context.fieldValue path = .ok stage := by
  unfold Value.fieldValue Value.resolve at h ⊢
  cases hpath : (Text.splitAll (· = '.') path.toList).map String.ofList with
  | nil => exact absurd (List.map_eq_nil_iff.mp hpath) (Text.splitAll_ne_nil _ _)
  | cons key rest =>
    rw [hpath] at h
    unfold Value.follow at h ⊢
    by_cases hkey : key = "stage"
    · subst hkey
      rw [step_stage] at h ⊢
      cases rest with
      | nil => exact .inr rfl
      | cons key rest =>
        -- Text has no parts, so that nothing is seen behind the stage.
        obtain ⟨s, hs⟩ := htext
        have hmissing : r.stage.step key = .missing := by
          rw [hs]
          cases s <;> rfl
        dsimp only at h
        unfold Value.follow at h
        rw [hmissing] at h
        cases h
        cases hfilled
    · rw [step_put_stage hkey]
      exact .inl h

end Record

namespace Template

def IsPlain (s : String) : Prop := ∀ cs, cs <:+ s.toList → placeholder? cs = none

theorem renderFrom_plain (context : Value) {cs : List Char}
    (h : ∀ rest, rest <:+ cs → placeholder? rest = none) : renderFrom context 0 cs = .ok cs := by
  induction cs with
  | nil => rfl
  | cons c rest ih =>
    have hrest := ih fun more hmore => h more (hmore.trans (List.suffix_cons c rest))
    unfold renderFrom
    rw [h (c :: rest) (List.suffix_refl _), hrest]
    rfl

theorem render_plain (context : Value) {s : String} (h : IsPlain s) : render context s = .ok s := by
  unfold render
  rw [renderFrom_plain context h]
  exact congrArg Except.ok (String.ofList_toList)

end Template

namespace Action
variable {context : Value} {fields changes : Fields}

theorem renderChanges_cons {key : String} {v : Value} {rest : Fields}
    (h : renderChanges context ((key, v) :: rest) = .ok changes) :
    ∃ v' more, changes = (key, v') :: more ∧ renderChanges context rest = .ok more
      ∧ (v' = v ∨ ∃ s s', v = .str s ∧ v' = .str s') := by
  cases hrest : renderChanges context rest with
  | error cause =>
    cases v with
    | str s =>
      unfold renderChanges at h
      cases hs : Template.render context s <;> rw [hs, hrest] at h <;> cases h
    | null | bool | int | double | list | obj =>
      unfold renderChanges at h
      rw [hrest] at h
      cases h
  | ok more =>
    cases v with
    | str s =>
      unfold renderChanges at h
      cases hs : Template.render context s with
      | error cause => rw [hs] at h; cases h
      | ok text =>
        rw [hs, hrest] at h
        exact ⟨.str text, more, (Except.ok.inj h).symm, rfl, .inr ⟨s, text, rfl, rfl⟩⟩
    | null | bool | int | double | list | obj =>
      unfold renderChanges at h
      rw [hrest] at h
      exact ⟨_, more, (Except.ok.inj h).symm, rfl, .inl rfl⟩

theorem renderChanges_keys (h : renderChanges context fields = .ok changes) :
    Fields.keys changes = Fields.keys fields := by
  induction fields generalizing changes with
  | nil => rw [← Except.ok.inj h]
  | cons c rest ih =>
    obtain ⟨v', more, rfl, hmore, -⟩ := renderChanges_cons h
    exact congrArg (c.1 :: ·) (ih hmore)

/-- A rendered value is the one that was given, or both are texts. -/
theorem renderChanges_get? (h : renderChanges context fields = .ok changes) {key : String} {v' : Value}
    (hv : Fields.get? changes key = some v') : ∃ v, Fields.get? fields key = some v
      ∧ (v' = v ∨ ∃ s s', v = .str s ∧ v' = .str s') := by
  induction fields generalizing changes with
  | nil =>
    rw [← Except.ok.inj h] at hv
    cases hv
  | cons c rest ih =>
    obtain ⟨v'', more, rfl, hmore, hkind⟩ := renderChanges_cons h
    unfold Fields.get? at hv ⊢
    rw [List.lookup_cons] at hv ⊢
    cases hkey : key == c.1 with
    | true =>
      rw [hkey] at hv
      obtain rfl := Option.some.inj hv
      exact ⟨c.2, rfl, hkind⟩
    | false =>
      rw [hkey] at hv
      exact ih hmore hv

/-- Rendered changes are as writable as those that were given. -/
theorem renderChanges_writable (hwritable : fields.AreWritable)
    (h : renderChanges context fields = .ok changes) : changes.AreWritable where
  distinct := by
    rw [renderChanges_keys h]
    exact hwritable.distinct
  taken f v' hv' := by
    obtain ⟨v, hv, hkind⟩ := renderChanges_get? h hv'
    have htaken := hwritable.taken f v hv
    rcases hkind with rfl | ⟨s, s', rfl, rfl⟩
    · exact htaken
    · cases f with
      | isOpen =>
        obtain ⟨b, hb⟩ := htaken
        cases hb
      | ownerId | stage | title => exact ⟨some s', rfl⟩

/-- Rendering touches the texts only. -/
theorem renderChanges_plain (h : ∀ c ∈ fields, ∀ s, c.2 = .str s → Template.IsPlain s) :
    renderChanges context fields = .ok fields := by
  induction fields with
  | nil => rfl
  | cons c rest ih =>
    have hrest := ih fun d hd => h d (List.mem_cons_of_mem _ hd)
    obtain ⟨key, v⟩ := c
    cases v with
    | str s =>
      unfold renderChanges
      rw [Template.render_plain context (h (key, .str s) List.mem_cons_self s rfl), hrest]
      rfl
    | null | bool | int | double | list | obj =>
      unfold renderChanges
      rw [hrest]
      rfl

end Action

end RecordFlow
