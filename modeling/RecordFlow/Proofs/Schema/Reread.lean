import RecordFlow.Approval.Definition
import RecordFlow.Proofs.Calendar.Written
import RecordFlow.Proofs.Schema.Identifier

/-! # Data that is read again

The steps of a definition are stored in written form and decoded again whenever they are used. If
they are decoded at all, they are the steps that were written.

Requests are read with good will, so that what is stored of them is often written otherwise than
the request was. Still a decoder makes the same of what is stored as of the request: it takes its
own results, in their written form, for what they are.
-/
namespace RecordFlow
open Schema

/-! ## Definitions as they are stored -/

namespace Schema
variable {α : Type} {fields : Fields} {key : String} {decode : Decoder α} {v : Value} {a : α}

theorem required_eq (hv : fields.get? key = some v) (ha : decode v = .valid a) :
    required fields key decode = .valid a := by
  rw [required, hv]
  exact congrArg (Checked.under (.field key)) ha

theorem optional_eq {fallback : α} (hv : fields.get? key = some v) (ha : decode v = .valid a) :
    Schema.optional fields key fallback decode = .valid a := by
  rw [Schema.optional, hv]
  exact congrArg (Checked.under (.field key)) ha

theorem nullable_ofOption (s : Option String) : nullable string (.ofOption s) = .valid s := by
  cases s <;> rfl

theorem bool_bool (b : Bool) : Schema.bool (.bool b) = .valid b := rfl

theorem eq_of_intFrom {least n m : Int} (h : intFrom least (.int n) = .valid m) : m = n := by
  have h : (if least ≤ n then Checked.valid n else .fail .tooSmall) = .valid m := by
    simpa [intFrom, Checked.ensure, int] using h
  split at h
  · exact (Checked.valid.inj h).symm
  · cases h

theorem eq_of_nullable_intFrom {least : Int} {n m : Option Int}
    (h : nullable (intFrom least) (.opt .int n) = .valid m) : m = n := by
  cases n with
  | none => exact (Checked.valid.inj h).symm
  | some n =>
    have hsome : nullable (intFrom least) (.opt .int (some n)) = some <$> intFrom least (.int n) := rfl
    rw [hsome] at h
    cases hn : intFrom least (.int n) with
    | invalid issues => rw [hn] at h; cases h
    | valid m =>
      rw [hn] at h
      rw [← Checked.valid.inj h, eq_of_intFrom hn]

theorem eq_of_itemsFrom {encode : α → Value} (hcoded : ∀ a b, decode (encode a) = .valid b → b = a)
    {position : Nat} {items items' : List α}
    (h : itemsFrom decode position (items.map encode) = .valid items') : items' = items := by
  induction items generalizing position items' with
  | nil => exact (Checked.valid.inj h).symm
  | cons a rest ih =>
    rw [List.map_cons, itemsFrom] at h
    cases hr : itemsFrom decode (position + 1) (rest.map encode) with
    | invalid issues => cases ha : decode (encode a) <;> rw [ha, hr] at h <;> cases h
    | valid more =>
      cases ha : decode (encode a) with
      | invalid issues => rw [ha, hr] at h; cases h
      | valid b =>
        rw [ha, hr] at h
        rw [← Checked.valid.inj h, hcoded a b ha, ih hr]

end Schema

theorem ApproverKind.oneOf_name (k : ApproverKind) : oneOf table (.str k.name) = .valid k := by
  cases k <;> rfl

theorem ApprovalStep.eq_of_decode_encode (s s' : ApprovalStep) (h : decode s.encode = .valid s') :
    s' = s := by
  unfold decode encode object at h
  dsimp only at h
  rw [required_eq rfl s.kind.oneOf_name, optional_eq rfl (nullable_ofOption s.value),
    optional_eq rfl (nullable_ofOption s.name), optional_eq rfl (bool_bool s.requireComment)] at h
  cases hn : nullable (intFrom 1) (.opt .int s.timeoutHours) with
  | invalid issues =>
    rw [Schema.optional, show Fields.get? _ _ = some (.opt .int s.timeoutHours) from rfl] at h
    dsimp only at h
    rw [hn] at h
    cases h
  | valid hours =>
    rw [optional_eq rfl hn] at h
    obtain rfl := eq_of_nullable_intFrom hn
    simp only [Checked.map_valid, Checked.seq_valid, Checked.andThen_valid, obey] at h
    split at h
    · exact (Checked.valid.inj h).symm
    · cases h

/-- The steps of a process that was created from a draft, as they are read. -/
theorem storedApprovalSteps_encode {steps steps' : List ApprovalStep}
    (h : storedApprovalSteps (.list (steps.map ApprovalStep.encode)) = .valid steps') :
    steps' = steps := by
  cases steps with
  | nil => exact (Checked.valid.inj h).symm
  | cons s rest => exact eq_of_itemsFrom ApprovalStep.eq_of_decode_encode h

namespace Schema

/-! ## Decoders that read their own results -/

namespace Checked
variable {α β : Type} {x : Checked α} {b : β}

theorem map_eq_valid {f : α → β} : f <$> x = .valid b ↔ ∃ a, x = .valid a ∧ f a = b := by
  cases x with
  | valid a =>
    rw [map_valid]
    constructor
    · intro h
      exact ⟨a, rfl, valid.inj h⟩
    · rintro ⟨_, ha, rfl⟩
      rw [valid.inj ha]
  | invalid issues =>
    constructor
    · intro h
      cases h
    · rintro ⟨_, ha, _⟩
      cases ha

theorem seq_eq_valid {f : Checked (α → β)} :
    f <*> x = .valid b ↔ ∃ g, f = .valid g ∧ ∃ a, x = .valid a ∧ g a = b := by
  cases f with
  | valid g =>
    have applied : (valid g : Checked (α → β)) <*> x = g <$> x := by
      cases x <;> rfl
    rw [applied, map_eq_valid]
    constructor
    · intro h
      exact ⟨g, rfl, h⟩
    · rintro ⟨_, hg, h⟩
      rwa [valid.inj hg]
  | invalid issues =>
    constructor
    · intro h
      cases x <;> cases h
    · rintro ⟨_, hg, _⟩
      cases hg

theorem andThen_eq_valid {f : α → Checked β} :
    x.andThen f = .valid b ↔ ∃ a, x = .valid a ∧ f a = .valid b := by
  cases x with
  | valid a =>
    rw [andThen_valid]
    constructor
    · intro h
      exact ⟨a, rfl, h⟩
    · rintro ⟨_, ha, h⟩
      rwa [valid.inj ha]
  | invalid issues =>
    constructor
    · intro h
      cases h
    · rintro ⟨_, ha, _⟩
      cases ha

theorem under_eq_valid {step : Step} {a : α} : x.under step = .valid a ↔ x = .valid a := by
  cases x with
  | valid b => rw [under_valid]
  | invalid issues =>
    constructor
    · intro h
      cases h
    · intro h
      cases h

theorem ensure_eq_valid {holds : α → Bool} {fault : α → Fault} {a : α} :
    x.ensure holds fault = .valid a ↔ x = .valid a ∧ holds a = true := by
  rw [ensure, andThen_eq_valid]
  constructor
  · rintro ⟨c, hx, hc⟩
    split at hc
    · next hholds =>
      obtain rfl := valid.inj hc
      exact ⟨hx, hholds⟩
    · cases hc
  · rintro ⟨hx, hholds⟩
    exact ⟨a, hx, by rw [if_pos hholds]⟩

end Checked

/-- What a decoder makes of a value it makes of the written form of its result too. -/
def Rereads {α : Type} (decode : Decoder α) (encode : α → Value) : Prop :=
  ∀ v a, decode v = .valid a → decode (encode a) = .valid a

namespace Rereads
variable {α : Type} {decode : Decoder α} {encode : α → Value}

theorem ensure (h : Rereads decode encode) (holds : α → Bool) (fault : α → Fault) :
    Rereads (fun v => (decode v).ensure holds fault) encode := by
  intro v a ha
  obtain ⟨hread, hholds⟩ := Checked.ensure_eq_valid.mp ha
  exact Checked.ensure_eq_valid.mpr ⟨h v a hread, hholds⟩

theorem string : Rereads Schema.string .str := fun _ _ _ => rfl

theorem nonEmpty : Rereads Schema.nonEmpty .str := string.ensure _ _

theorem link : Rereads Schema.link .str := nonEmpty.ensure _ _

theorem int : Rereads Schema.int .int := fun _ _ _ => rfl

theorem intFrom (least : Int) : Rereads (Schema.intFrom least) .int := int.ensure _ _

theorem bool : Rereads Schema.bool .bool := fun _ _ _ => rfl

theorem uuid : Rereads Schema.uuid .uuid := fun _ _ h => uuid_text (isShort_of_uuid h)

theorem date : Rereads Schema.date .date := fun _ _ h => dayText_text (isValid_of_date h)

theorem dict : Rereads Schema.dict .obj := fun _ _ _ => rfl

theorem nonEmptyDict : Rereads Schema.nonEmptyDict .obj := dict.ensure _ _

theorem oneOf {table : List (String × α)} {name : α → String}
    (h : ∀ a, table.lookup (name a) = some a) : Rereads (Schema.oneOf table) (.str ∘ name) := by
  intro v a _
  rw [Function.comp_apply, Schema.oneOf, h a]

/-- A value that may be null is null for nothing but what is absent. -/
theorem nullable (h : Rereads decode encode) (hnull : ∀ a, encode a ≠ .null) :
    Rereads (Schema.nullable decode) (.opt encode) := by
  intro v a ha
  cases a with
  | none => rfl
  | some a =>
    have read : decode v = .valid a := by
      cases v with
      | null => cases ha
      | _ =>
        obtain ⟨b, hb, hab⟩ := Checked.map_eq_valid.mp ha
        rwa [Option.some.inj hab] at hb
    have written : Schema.nullable decode (encode a) = some <$> decode (encode a) := by
      cases hform : encode a with
      | null => exact absurd hform (hnull a)
      | _ => rfl
    rw [Value.opt, written, h v a read, Checked.map_valid]

theorem itemsFrom (h : Rereads decode encode) {items : List Value} {as : List α} :
    ∀ {position : Nat}, Schema.itemsFrom decode position items = .valid as →
      ∀ position, Schema.itemsFrom decode position (as.map encode) = .valid as := by
  induction items generalizing as with
  | nil =>
    intro _ ha _
    obtain rfl : [] = as := Checked.valid.inj ha
    rfl
  | cons v rest ih =>
    intro _ ha position
    obtain ⟨_, hf, more, hmore, rfl⟩ := Checked.seq_eq_valid.mp ha
    obtain ⟨a, hitem, rfl⟩ := Checked.map_eq_valid.mp hf
    have head := h v a (Checked.under_eq_valid.mp hitem)
    have tail := ih hmore (position + 1)
    rw [List.map_cons, Schema.itemsFrom, head, tail]
    rfl

theorem listOf (h : Rereads decode encode) :
    Rereads (Schema.listOf decode) fun as => .list (as.map encode) := by
  intro v as ha
  cases v with
  | list items => exact h.itemsFrom ha 0
  | _ => cases ha

theorem nonEmptyListOf (h : Rereads decode encode) :
    Rereads (Schema.nonEmptyListOf decode) fun as => .list (as.map encode) := by
  intro v as ha
  cases v with
  | list items =>
    cases items with
    | nil => cases ha
    | cons v rest =>
      have read := h.listOf (.list (v :: rest)) as ha
      cases as with
      | nil =>
        obtain ⟨_, hf, _, _, hnil⟩ := Checked.seq_eq_valid.mp ha
        obtain ⟨_, _, rfl⟩ := Checked.map_eq_valid.mp hf
        cases hnil
      | cons a more => exact read
  | _ => cases ha

theorem entriesOf (h : Rereads decode encode) {fields : Fields} {entries : List (String × α)}
    (hread : Schema.entriesOf decode fields = .valid entries) :
    Schema.entriesOf decode (entries.map fun e => (e.1, encode e.2)) = .valid entries := by
  induction fields generalizing entries with
  | nil =>
    obtain rfl : [] = entries := Checked.valid.inj hread
    rfl
  | cons field rest ih =>
    obtain ⟨_, hf, more, hmore, rfl⟩ := Checked.seq_eq_valid.mp hread
    obtain ⟨a, ha, rfl⟩ := Checked.map_eq_valid.mp hf
    have head := h field.2 a (Checked.under_eq_valid.mp ha)
    have tail := ih hmore
    rw [List.map_cons, Schema.entriesOf, head, tail]
    rfl

theorem dictOf (h : Rereads decode encode) :
    Rereads (Schema.dictOf decode) fun entries => .obj (entries.map fun e => (e.1, encode e.2)) := by
  intro v entries hv
  cases v with
  | obj fields => exact h.entriesOf hv
  | _ => cases hv

variable {fields written : Fields} {key : String} {a fallback : α}

/-- What a field that was required gave is read from its written form. -/
theorem of_required (h : Rereads decode encode)
    (hread : Schema.required fields key decode = .valid a) : decode (encode a) = .valid a := by
  unfold Schema.required at hread
  split at hread
  · next v _ => exact h v a (Checked.under_eq_valid.mp hread)
  · cases hread

theorem required (h : Rereads decode encode) (hread : Schema.required fields key decode = .valid a)
    (hwritten : written.get? key = some (encode a)) :
    Schema.required written key decode = .valid a :=
  required_eq hwritten (h.of_required hread)

/-- What a field with a default gave is read from its written form, be it the default. -/
theorem of_optional (h : Rereads decode encode)
    (hread : Schema.optional fields key fallback decode = .valid a)
    (hfallback : decode (encode fallback) = .valid fallback) : decode (encode a) = .valid a := by
  unfold Schema.optional at hread
  split at hread
  · next v _ => exact h v a (Checked.under_eq_valid.mp hread)
  · obtain rfl := Checked.valid.inj hread
    exact hfallback

theorem optional (h : Rereads decode encode)
    (hread : Schema.optional fields key fallback decode = .valid a)
    (hfallback : decode (encode fallback) = .valid fallback)
    (hwritten : written.get? key = some (encode a)) :
    Schema.optional written key fallback decode = .valid a :=
  optional_eq hwritten (h.of_optional hread hfallback)

end Rereads

end Schema

end RecordFlow
