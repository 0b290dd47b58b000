import RecordFlow.Assignment.Definition
import RecordFlow.Blueprint.Definition
import RecordFlow.Cadence.Definition
import RecordFlow.Proofs.Workflow.Readable

/-! # Drafts that are read again

A draft is written out with every default, with the conditions and actions in their stored form. It
is read as the same draft, with all of its parts, and keeps the rules that hold between them.
-/
namespace RecordFlow
open Schema

namespace Schema
variable {α : Type} {decode : Decoder α} {encode : α → Value}

theorem andThen_obey_eq_valid {x : Checked α} {rule : α → Option Rule} {a : α} :
    (x.andThen fun b => obey b (rule b)) = .valid a ↔ x = .valid a ∧ rule a = none := by
  simp only [Checked.andThen_eq_valid, obey_eq_valid]
  constructor
  · rintro ⟨b, hb, hrule, rfl⟩
    exact ⟨hb, hrule⟩
  · rintro ⟨ha, hrule⟩
    exact ⟨a, ha, hrule, rfl⟩

theorem listOf_of_nonEmptyListOf {v : Value} {as : List α}
    (h : nonEmptyListOf decode v = .valid as) : listOf decode v = .valid as := by
  cases v with
  | list items =>
    cases items with
    | nil => cases h
    | cons v rest => exact h
  | _ => cases h

theorem listOf_map {as : List α} (h : ∀ a ∈ as, decode (encode a) = .valid a) :
    listOf decode (.list (as.map encode)) = .valid as := by
  have items (position : Nat) : itemsFrom decode position (as.map encode) = .valid as := by
    induction as generalizing position with
    | nil => rfl
    | cons a rest ih =>
      obtain ⟨ha, hrest⟩ := List.forall_mem_cons.mp h
      rw [List.map_cons, itemsFrom, ha, ih hrest]
      rfl
  exact items 0

/-- The items of a list that was read from written forms are read from theirs. -/
theorem decode_of_listOf {as : List α} (h : listOf decode (.list (as.map encode)) = .valid as) :
    ∀ a ∈ as, decode (encode a) = .valid a := by
  have items : ∀ position, itemsFrom decode position (as.map encode) = .valid as →
      ∀ a ∈ as, decode (encode a) = .valid a := by
    clear h
    induction as with
    | nil => exact fun _ _ => List.forall_mem_nil _
    | cons a rest ih =>
      intro position h
      rw [List.map_cons, itemsFrom] at h
      obtain ⟨_, hf, more, hmore, heq⟩ := Checked.seq_eq_valid.mp h
      obtain ⟨b, hb, rfl⟩ := Checked.map_eq_valid.mp hf
      obtain ⟨rfl, rfl⟩ := List.cons.inj heq
      exact List.forall_mem_cons.mpr ⟨Checked.under_eq_valid.mp hb, ih _ hmore⟩
  exact items 0 h

theorem anything_eq (v : Value) : anything v = .valid v := rfl

theorem orElse_list (items : List Value) : (Value.list items).orElse (.list []) = .list items := by
  cases items <;> rfl

end Schema

/-! ## Actions -/

/-- Actions that were read are, in written form, a list of objects, which are read as the same
actions. -/
theorem exists_raw_actions {actions : List Action} (h : ∀ a ∈ actions, a.IsRead) :
    ∃ raws, listOf dict (encodeActions actions) = .valid raws
      ∧ decodeActions (.list (raws.map .obj)) = .valid actions := by
  have form : encodeActions actions = .list ((actions.map fun a => a.encode.fields).map .obj) := by
    rw [encodeActions, List.map_map]
    rfl
  refine ⟨actions.map fun a => a.encode.fields, ?_, ?_⟩
  · rw [form]
    exact listOf_map fun _ _ => rfl
  · rw [← form]
    exact decodeActions_encodeActions h

theorem Rereads.actions : Rereads decodeActions encodeActions :=
  fun _ _ h => decodeActions_encodeActions (isRead_of_decodeActions h)

/-! ## Workflows -/

/-- A plan that was read is read again from the written forms of its conditions and actions. -/
theorem RawPlan.exists_written {p : RawPlan} {conditions : Option Condition} {actions : List Action}
    (h : p.read = .valid (conditions, actions)) :
    ∃ raws, listOf dict (encodeActions actions) = .valid raws
      ∧ RawPlan.read ⟨Condition.encode? conditions, raws⟩ = .valid (conditions, actions) := by
  obtain ⟨c, hc, hrest⟩ := Checked.andThen_eq_valid.mp h
  obtain ⟨l, hl, heq⟩ := Checked.map_eq_valid.mp hrest
  obtain ⟨rfl, rfl⟩ := Prod.mk.inj heq
  obtain ⟨raws, hraws, hread⟩ := exists_raw_actions (isRead_of_decodeActions hl)
  refine ⟨raws, hraws, ?_⟩
  rw [RawPlan.read, Condition.rereads_parse _ _ hc, Checked.andThen_valid, hread]
  rfl

theorem WorkflowDraft.rereads_decode : Rereads decode encode := by
  intro v d h
  cases v with
  | obj f =>
    obtain ⟨⟨plan, raw⟩, hraw, hrest⟩ := Checked.andThen_eq_valid.mp h
    obtain ⟨⟨conditions, actions⟩, hplan, hobeys⟩ := Checked.andThen_eq_valid.mp hrest
    obtain ⟨hconfig, rfl⟩ := obey_eq_valid.mp hobeys
    obtain ⟨raws, hraws, hread⟩ := RawPlan.exists_written hplan
    simp only [decodeRaw, Checked.seq_eq_valid, Checked.map_eq_valid] at hraw
    obtain ⟨_, ⟨_, ⟨_, ⟨_, ⟨_, ⟨_, ⟨_, ⟨_, ⟨_, ⟨_, ⟨_, ⟨name, hname, rfl⟩,
      description, hdescription, rfl⟩, module, hmodule, rfl⟩, isEnabled, henabled, rfl⟩,
      trigger, htrigger, rfl⟩, config, hdict, rfl⟩, written, -, rfl⟩, submitted, -, rfl⟩,
      halts, hhalts, rfl⟩, cap, hcap, rfl⟩, cooldown, hcooldown, rfl⟩,
      priority, hpriority, heq⟩ := hraw
    obtain ⟨-, rfl⟩ := Prod.mk.inj heq
    unfold decode encode object decodeRaw
    dsimp only
    rw [Rereads.nonEmpty.required hname rfl, Rereads.text.optional hdescription rfl rfl,
      Rereads.nonEmpty.required hmodule rfl, Rereads.bool.optional henabled rfl rfl,
      (Rereads.oneOf Trigger.lookup_name).required htrigger rfl,
      Rereads.dict.optional hdict rfl rfl, optional_eq rfl (anything_eq _), optional_eq rfl hraws,
      Rereads.bool.optional hhalts rfl rfl, (Rereads.nullableInt 1).optional hcap rfl rfl,
      (Rereads.nullableInt 1).optional hcooldown rfl rfl, Rereads.int.optional hpriority rfl rfl]
    simp only [Checked.map_valid, Checked.seq_valid, Checked.andThen_valid, hread]
    exact obey_eq_valid.mpr ⟨hconfig, rfl⟩
  | _ => cases h

/-! ## Cadences -/

theorem StepKind.lookup_name (k : StepKind) : table.lookup k.name = some k := by
  cases k <;> rfl

theorem CadenceStep.rereads_decode : Rereads decode encode := by
  intro v s h
  cases v with
  | obj f =>
    obtain ⟨hread, hrule⟩ := andThen_obey_eq_valid.mp h
    simp only [Checked.seq_eq_valid, Checked.map_eq_valid] at hread
    obtain ⟨_, ⟨_, ⟨_, ⟨_, ⟨_, ⟨_, ⟨_, ⟨_, ⟨_, ⟨_, ⟨_, ⟨id, hid, rfl⟩, kind, hkind, rfl⟩,
      days, hdays, rfl⟩, hours, hhours, rfl⟩, title, htitle, rfl⟩, description, hdescription, rfl⟩,
      priority, hpriority, rfl⟩, assignedTo, hassignedTo, rfl⟩, template, htemplate, rfl⟩,
      subject, hsubject, rfl⟩, body, hbody, rfl⟩, script, hscript, rfl⟩ := hread
    unfold decode encode object
    dsimp only
    rw [Rereads.string.optional hid rfl rfl,
      (Rereads.oneOf StepKind.lookup_name).required hkind rfl,
      (Rereads.intFrom 0).optional hdays rfl rfl, (Rereads.intFrom 0).optional hhours rfl rfl,
      Rereads.text.optional htitle rfl rfl, Rereads.text.optional hdescription rfl rfl,
      (Rereads.oneOf Priority.lookup_name).optional hpriority rfl rfl,
      Rereads.string.optional hassignedTo rfl rfl, Rereads.text.optional htemplate rfl rfl,
      Rereads.text.optional hsubject rfl rfl, Rereads.text.optional hbody rfl rfl,
      Rereads.text.optional hscript rfl rfl]
    exact andThen_obey_eq_valid.mpr ⟨rfl, hrule⟩
  | _ => cases h

structure CadenceDraft.IsRead (d : CadenceDraft) : Prop where
  name : nonEmpty (.str d.name) = .valid d.name
  steps : nonEmptyListOf CadenceStep.decode (.list (d.steps.map CadenceStep.encode))
    = .valid d.steps
  exitCondition : Condition.parse (Condition.encode? d.exitCondition) = .valid d.exitCondition

theorem CadenceDraft.isRead_of_decode {v : Value} {d : CadenceDraft} (h : decode v = .valid d) :
    d.IsRead := by
  cases v with
  | obj f =>
    obtain ⟨⟨written, raw⟩, hraw, hrest⟩ := Checked.andThen_eq_valid.mp h
    obtain ⟨exit, hexit, rfl⟩ := Checked.map_eq_valid.mp hrest
    simp only [Checked.seq_eq_valid, Checked.map_eq_valid] at hraw
    obtain ⟨_, ⟨_, ⟨_, ⟨_, ⟨_, ⟨name, hname, rfl⟩, description, -, rfl⟩, module, -, rfl⟩,
      isEnabled, -, rfl⟩, steps, hsteps, rfl⟩, written, -, heq⟩ := hraw
    obtain ⟨-, rfl⟩ := Prod.mk.inj heq
    exact ⟨Rereads.nonEmpty.of_required hname,
      CadenceStep.rereads_decode.nonEmptyListOf.of_required hsteps,
      Condition.rereads_parse _ _ hexit⟩
  | _ => cases h

theorem CadenceDraft.rereads_decode : Rereads decode encode := by
  intro v d h
  have read := isRead_of_decode h
  unfold decode encode object
  dsimp only
  rw [required_eq rfl read.name, optional_eq rfl (nullable_ofOption d.description),
    optional_eq rfl (nullable_ofOption d.module), optional_eq rfl (bool_bool d.isEnabled),
    required_eq rfl read.steps, optional_eq rfl (anything_eq _)]
  simp only [Checked.map_valid, Checked.seq_valid, Checked.andThen_valid, read.exitCondition]
  rfl

/-! ## Assignment rules -/

theorem Candidate.rereads_decode : Rereads decode encode := by
  intro v c h
  cases v with
  | obj f =>
    simp only [decode, object, Checked.seq_eq_valid, Checked.map_eq_valid] at h
    obtain ⟨_, ⟨userId, huser, rfl⟩, territory, hterritory, rfl⟩ := h
    unfold decode encode object
    dsimp only
    rw [Rereads.nonEmpty.required huser rfl, Condition.rereads_parse.optional hterritory rfl rfl]
    rfl
  | _ => cases h

structure RuleDraft.IsRead (d : RuleDraft) : Prop where
  name : nonEmpty (.str d.name) = .valid d.name
  candidates : listOf Candidate.decode (.list (d.candidates.map Candidate.encode))
    = .valid d.candidates
  rule : d.broken? = none

theorem RuleDraft.isRead_of_decode {v : Value} {d : RuleDraft} (h : decode v = .valid d) :
    d.IsRead := by
  cases v with
  | obj f =>
    obtain ⟨hread, hrule⟩ := andThen_obey_eq_valid.mp h
    simp only [Checked.seq_eq_valid, Checked.map_eq_valid] at hread
    obtain ⟨_, ⟨_, ⟨_, ⟨_, ⟨_, ⟨_, ⟨name, hname, rfl⟩, module, -, rfl⟩, strategy, -, rfl⟩,
      candidates, hcandidates, rfl⟩, ownerId, -, rfl⟩, fallbackOwnerId, -, rfl⟩,
      isEnabled, -, rfl⟩ := hread
    exact ⟨Rereads.nonEmpty.of_required hname,
      Candidate.rereads_decode.listOf.of_optional hcandidates rfl, hrule⟩
  | _ => cases h

theorem RuleDraft.rereads_decode : Rereads decode encode := by
  intro v d h
  have read := isRead_of_decode h
  have strategy : oneOf Strategy.table (.str d.strategy.name) = .valid d.strategy := by
    rw [oneOf, d.strategy.lookup_name]
  unfold decode encode object
  dsimp only
  rw [required_eq rfl read.name, optional_eq rfl (nullable_ofOption d.module),
    required_eq rfl strategy, optional_eq rfl read.candidates,
    optional_eq rfl (nullable_ofOption d.ownerId),
    optional_eq rfl (nullable_ofOption d.fallbackOwnerId), optional_eq rfl (bool_bool d.isEnabled)]
  exact andThen_obey_eq_valid.mpr ⟨rfl, read.rule⟩

/-! ## Blueprints -/

theorem FieldRequirement.rereads_decode : Rereads decode encode := by
  intro v r h
  cases v with
  | obj f =>
    simp only [decode, object, Checked.seq_eq_valid, Checked.map_eq_valid] at h
    obtain ⟨_, ⟨_, ⟨field, hfield, rfl⟩, label, hlabel, rfl⟩, condition, hcondition, rfl⟩ := h
    unfold decode encode object
    dsimp only
    rw [Rereads.nonEmpty.required hfield rfl, Rereads.text.optional hlabel rfl rfl,
      Condition.rereads_parse.optional hcondition rfl rfl]
    rfl
  | _ => cases h

/-- A field that was named by a text alone is written out like any other. -/
theorem FieldRequirement.rereads_decodeShort : Rereads decodeShort encode := by
  intro v r h
  have written : decodeShort r.encode = decode r.encode := rfl
  rw [written]
  cases v with
  | str s => exact rereads_decode _ r h
  | _ => exact rereads_decode _ r h

theorem Transition.rereads_decode : Rereads decode encode := by
  intro v t h
  cases v with
  | obj f =>
    obtain ⟨hread, hrule⟩ := andThen_obey_eq_valid.mp h
    simp only [Checked.seq_eq_valid, Checked.map_eq_valid] at hread
    obtain ⟨_, ⟨_, ⟨_, ⟨_, ⟨_, ⟨_, ⟨toStage, htoStage, rfl⟩, name, hname, rfl⟩,
      requiredFields, hrequired, rfl⟩, condition, hcondition, rfl⟩,
      requiresApproval, happroval, rfl⟩, process, hprocess, rfl⟩, actions, hactions, rfl⟩ := hread
    unfold decode encode object
    dsimp only
    rw [Rereads.nonEmpty.required htoStage rfl, Rereads.text.optional hname rfl rfl,
      FieldRequirement.rereads_decodeShort.listOf.optional hrequired rfl rfl,
      Condition.rereads_parse.optional hcondition rfl rfl,
      Rereads.bool.optional happroval rfl rfl, Rereads.nullableUuid.optional hprocess rfl rfl,
      Rereads.actions.optional hactions rfl rfl]
    exact andThen_obey_eq_valid.mpr ⟨rfl, hrule⟩
  | _ => cases h

theorem Stage.rereads_decode : Rereads decode encode := by
  intro v s h
  cases v with
  | obj f =>
    simp only [decode, object, Checked.seq_eq_valid, Checked.map_eq_valid] at h
    obtain ⟨_, ⟨_, ⟨key, hkey, rfl⟩, name, hname, rfl⟩, transitions, htransitions, rfl⟩ := h
    unfold decode encode object
    dsimp only
    rw [Rereads.nonEmpty.required hkey rfl, Rereads.text.optional hname rfl rfl,
      Transition.rereads_decode.listOf.optional htransitions rfl rfl]
    rfl
  | _ => cases h

structure BlueprintDraft.IsRead (d : BlueprintDraft) : Prop where
  name : nonEmpty (.str d.name) = .valid d.name
  module : nonEmpty (.str d.module) = .valid d.module
  stages : nonEmptyListOf Stage.decode (.list (d.stages.map Stage.encode)) = .valid d.stages
  rule : broken? d.stages = none

theorem BlueprintDraft.isRead_of_decode {v : Value} {d : BlueprintDraft} (h : decode v = .valid d) :
    d.IsRead := by
  cases v with
  | obj f =>
    obtain ⟨hread, hrule⟩ := andThen_obey_eq_valid.mp h
    simp only [Checked.seq_eq_valid, Checked.map_eq_valid] at hread
    obtain ⟨_, ⟨_, ⟨_, ⟨name, hname, rfl⟩, module, hmodule, rfl⟩, isEnabled, -, rfl⟩,
      stages, hstages, rfl⟩ := hread
    exact ⟨Rereads.nonEmpty.of_required hname, Rereads.nonEmpty.of_required hmodule,
      Stage.rereads_decode.nonEmptyListOf.of_required hstages, hrule⟩
  | _ => cases h

theorem BlueprintDraft.rereads_decode : Rereads decode encode := by
  intro v d h
  have read := isRead_of_decode h
  unfold decode encode object
  dsimp only
  rw [required_eq rfl read.name, required_eq rfl read.module,
    optional_eq rfl (bool_bool d.isEnabled), required_eq rfl read.stages]
  exact andThen_obey_eq_valid.mpr ⟨rfl, read.rule⟩

/-! ## Approval processes -/

theorem ApprovalStep.rereads_decode : Rereads decode encode := by
  intro v s h
  cases v with
  | obj f =>
    obtain ⟨hread, hrule⟩ := andThen_obey_eq_valid.mp h
    simp only [Checked.seq_eq_valid, Checked.map_eq_valid] at hread
    obtain ⟨_, ⟨_, ⟨_, ⟨_, ⟨kind, -, rfl⟩, value, hvalue, rfl⟩, name, hname, rfl⟩,
      requireComment, hcomment, rfl⟩, hours, hhours, rfl⟩ := hread
    unfold decode encode object
    dsimp only
    rw [required_eq rfl kind.oneOf_name, Rereads.text.optional hvalue rfl rfl,
      Rereads.text.optional hname rfl rfl, Rereads.bool.optional hcomment rfl rfl,
      (Rereads.nullableInt 1).optional hhours rfl rfl]
    exact andThen_obey_eq_valid.mpr ⟨rfl, hrule⟩
  | _ => cases h

structure ProcessDraft.IsRead (d : ProcessDraft) : Prop where
  name : nonEmpty (.str d.name) = .valid d.name
  steps : nonEmptyListOf ApprovalStep.decode (.list (d.steps.map ApprovalStep.encode))
    = .valid d.steps
  onApprove : ∀ a ∈ d.onApprove, a.IsRead
  onReject : ∀ a ∈ d.onReject, a.IsRead

theorem ProcessDraft.isRead_of_decode {v : Value} {d : ProcessDraft} (h : decode v = .valid d) :
    d.IsRead := by
  cases v with
  | obj f =>
    obtain ⟨⟨approve, reject, raw⟩, hraw, hrest⟩ := Checked.andThen_eq_valid.mp h
    obtain ⟨onApprove, hApprove, hrest⟩ := Checked.andThen_eq_valid.mp hrest
    obtain ⟨onReject, hReject, rfl⟩ := Checked.map_eq_valid.mp hrest
    simp only [Checked.seq_eq_valid, Checked.map_eq_valid] at hraw
    obtain ⟨_, ⟨_, ⟨_, ⟨_, ⟨_, ⟨name, hname, rfl⟩, module, -, rfl⟩, isEnabled, -, rfl⟩,
      steps, hsteps, rfl⟩, approve, -, rfl⟩, reject, -, heq⟩ := hraw
    obtain ⟨-, heq⟩ := Prod.mk.inj heq
    obtain ⟨-, rfl⟩ := Prod.mk.inj heq
    exact ⟨Rereads.nonEmpty.of_required hname,
      ApprovalStep.rereads_decode.nonEmptyListOf.of_required hsteps,
      isRead_of_decodeActions hApprove, isRead_of_decodeActions hReject⟩
  | _ => cases h

theorem ProcessDraft.rereads_decode : Rereads decode encode := by
  intro v d h
  have read := isRead_of_decode h
  obtain ⟨approve, happrove, honApprove⟩ := exists_raw_actions read.onApprove
  obtain ⟨reject, hreject, honReject⟩ := exists_raw_actions read.onReject
  unfold decode encode object
  dsimp only
  rw [required_eq rfl read.name, optional_eq rfl (nullable_ofOption d.module),
    optional_eq rfl (bool_bool d.isEnabled), required_eq rfl read.steps,
    optional_eq rfl happrove, optional_eq rfl hreject]
  simp only [Checked.map_valid, Checked.seq_valid, Checked.andThen_valid, honApprove, honReject]
  rfl

end RecordFlow
