import RecordFlow.Catalog
import RecordFlow.Proofs.Action.Written

/-! # Workflows that can be read

What a workflow stores as it was written is read again whenever the workflow is used. Drafts and
changes were read themselves, so what they put into the columns is read as they hold it: a workflow
that was stored from a draft can be read, and so it can after every change.

A draft is refused if its configuration is not in order. A change is not: its configuration is stored
as it comes, and stays in order only if every change brings one that is.
-/
namespace RecordFlow
open Schema

theorem Trigger.lookup_name (t : Trigger) : table.lookup t.name = some t := by
  cases t <;> decide

theorem Trigger.name_injective {t u : Trigger} (h : t.name = u.name) : t = u := by
  have found := t.lookup_name
  rw [h, u.lookup_name] at found
  exact (Option.some.inj found).symm

/-! ## What was read -/

theorem limit_read {fields : Fields} {key : String} {limit : Option Int}
    (h : Schema.optional fields key none (nullable (intFrom 1)) = .valid limit) :
    nullable (intFrom 1) (.opt .int limit) = .valid limit :=
  (Rereads.nullableInt 1).of_optional h rfl

/-- The conditions and actions of a plan that was read are read from their written forms. -/
theorem RawPlan.read_written {p : RawPlan} {conditions : Option Condition} {actions : List Action}
    (h : p.read = .valid (conditions, actions)) :
    Condition.parse (Condition.encode? conditions) = .valid conditions
      ∧ storedActions (encodeActions actions) = .valid actions := by
  obtain ⟨c, hc, hrest⟩ := Checked.andThen_eq_valid.mp h
  obtain ⟨l, hl, heq⟩ := Checked.map_eq_valid.mp hrest
  obtain ⟨rfl, rfl⟩ := Prod.mk.inj heq
  exact ⟨Condition.rereads_parse _ _ hc, storedActions_encodeActions (isRead_of_decodeActions hl)⟩

structure WorkflowDraft.IsRead (d : WorkflowDraft) : Prop where
  conditions : Condition.parse (Condition.encode? d.conditions) = .valid d.conditions
  actions : storedActions (encodeActions d.actions) = .valid d.actions
  cap : nullable (intFrom 1) (.opt .int d.runCountCap) = .valid d.runCountCap
  cooldown : nullable (intFrom 1) (.opt .int d.cooldownSeconds) = .valid d.cooldownSeconds
  config : configRule? d.config = none

theorem obey_eq_valid {α : Type} {a b : α} {rule : Option Rule} :
    obey a rule = .valid b ↔ rule = none ∧ a = b := by
  cases rule with
  | none => simp [obey]
  | some rule => simp [obey, Checked.fail]

theorem WorkflowDraft.isRead_of_decode {v : Value} {d : WorkflowDraft} (h : decode v = .valid d) :
    d.IsRead := by
  cases v with
  | obj f =>
    obtain ⟨⟨plan, raw⟩, hraw, hrest⟩ := Checked.andThen_eq_valid.mp h
    obtain ⟨⟨conditions, actions⟩, hplan, hobeys⟩ := Checked.andThen_eq_valid.mp hrest
    obtain ⟨hconfig, rfl⟩ := obey_eq_valid.mp hobeys
    obtain ⟨hconditions, hactions⟩ := RawPlan.read_written hplan
    simp only [decodeRaw, Checked.seq_eq_valid, Checked.map_eq_valid] at hraw
    obtain ⟨_, ⟨_, ⟨_, ⟨_, ⟨_, ⟨_, ⟨_, ⟨_, ⟨_, ⟨_, ⟨_, ⟨name, -, rfl⟩, description, -, rfl⟩,
      module, -, rfl⟩, isEnabled, -, rfl⟩, trigger, -, rfl⟩, config, -, rfl⟩, written, -, rfl⟩,
      raws, -, rfl⟩, halts, -, rfl⟩, cap, hcap, rfl⟩, cooldown, hcooldown, rfl⟩, priority, -, heq⟩ := hraw
    obtain ⟨-, rfl⟩ := Prod.mk.inj heq
    exact ⟨hconditions, hactions, limit_read hcap, limit_read hcooldown, hconfig⟩
  | _ => cases h

/-- A change as it comes out of a request. Of its configuration nothing is asked. -/
structure WorkflowChange.IsRead (c : WorkflowChange) : Prop where
  conditions : ∀ conditions, c.conditions = some conditions →
    Condition.parse (Condition.encode? conditions) = .valid conditions
  actions : ∀ actions, c.actions = some (some actions) →
    storedActions (encodeActions actions) = .valid actions
  cap : ∀ limit, c.runCountCap = some limit →
    nullable (intFrom 1) (.opt .int limit) = .valid limit
  cooldown : ∀ limit, c.cooldownSeconds = some limit →
    nullable (intFrom 1) (.opt .int limit) = .valid limit

theorem submitted_limit_read {fields : Fields} {key : String} {submitted : Option (Option Int)}
    (h : WorkflowChange.submitted fields key (intFrom 1) = .valid submitted) (limit : Option Int)
    (hlimit : submitted = some limit) : nullable (intFrom 1) (.opt .int limit) = .valid limit := by
  unfold WorkflowChange.submitted Schema.optional at h
  split at h
  · next v _ =>
    obtain ⟨read, hread, heq⟩ := Checked.map_eq_valid.mp (Checked.under_eq_valid.mp h)
    obtain rfl := Option.some.inj (heq.trans hlimit)
    exact Rereads.nullableInt 1 _ _ hread
  · cases Checked.valid.inj h
    cases hlimit

theorem WorkflowChange.isRead_of_decode {v : Value} {c : WorkflowChange} (h : decode v = .valid c) :
    c.IsRead := by
  cases v with
  | obj f =>
    obtain ⟨⟨plan, raw⟩, hraw, hrest⟩ := Checked.andThen_eq_valid.mp h
    obtain ⟨⟨conditions, actions⟩, hplan, rfl⟩ := Checked.map_eq_valid.mp hrest
    obtain ⟨hconditions, hactions⟩ := RawPlan.read_written hplan
    simp only [decodeRaw, Checked.seq_eq_valid, Checked.map_eq_valid] at hraw
    obtain ⟨_, ⟨_, ⟨_, ⟨_, ⟨_, ⟨_, ⟨_, ⟨_, ⟨_, ⟨name, -, rfl⟩, description, -, rfl⟩,
      isEnabled, -, rfl⟩, config, -, rfl⟩, written, -, rfl⟩, raws, -, rfl⟩, halts, -, rfl⟩,
      cap, hcap, rfl⟩, cooldown, hcooldown, rfl⟩, priority, -, heq⟩ := hraw
    obtain ⟨-, rfl⟩ := Prod.mk.inj heq
    refine ⟨?_, ?_, submitted_limit_read hcap, submitted_limit_read hcooldown⟩
    · intro given hgiven
      obtain ⟨_, -, rfl⟩ := Option.map_eq_some_iff.mp hgiven
      exact hconditions
    · intro given hgiven
      obtain ⟨raws, -, heq⟩ := Option.map_eq_some_iff.mp hgiven
      obtain ⟨_, -, rfl⟩ := Option.map_eq_some_iff.mp heq
      exact hactions
  | _ => cases h

/-! ## What is stored -/

namespace StoredWorkflow

structure IsReadable (w : StoredWorkflow) : Prop where
  trigger : ∃ t : Trigger, w.trigger = t.name
  config : ∃ config, dict (w.config.orElse (.obj [])) = .valid config
  conditions : ∃ conditions, Condition.parse w.conditions = .valid conditions
  actions : ∃ actions, storedActions w.actions = .valid actions
  cap : ∃ limit, nullable (intFrom 1) w.runCountCap = .valid limit
  cooldown : ∃ limit, nullable (intFrom 1) w.cooldownSeconds = .valid limit

def IsConfigured (w : StoredWorkflow) : Prop :=
  ∀ config, w.config = .obj config → configRule? config = none

theorem int_of_limit {v : Value} {limit : Option Int}
    (h : nullable (intFrom 1) v = .valid limit) : nullable int v = .valid limit := by
  have wider {v : Value} (h : some <$> intFrom 1 v = .valid limit) :
      some <$> int v = .valid limit := by
    obtain ⟨n, hn, rfl⟩ := Checked.map_eq_valid.mp h
    exact Checked.map_eq_valid.mpr ⟨n, (Checked.ensure_eq_valid.mp hn).1, rfl⟩
  cases v with
  | null => exact h
  | _ => exact wider h

/-- A workflow whose columns can be read can be used, with just what the columns hold. -/
theorem IsReadable.definition {w : StoredWorkflow} (h : w.IsReadable) (hid : w.id.IsShort) :
    ∃ d, w.definition = .valid d ∧ d.id = some w.id ∧ Condition.parse w.conditions = .valid d.conditions
      ∧ storedActions w.actions = .valid d.actions := by
  obtain ⟨trigger, htrigger⟩ := h.trigger
  obtain ⟨config, hconfig⟩ := h.config
  obtain ⟨conditions, hconditions⟩ := h.conditions
  obtain ⟨actions, hactions⟩ := h.actions
  obtain ⟨cap, hcap⟩ := h.cap
  obtain ⟨cooldown, hcooldown⟩ := h.cooldown
  refine ⟨⟨some w.id, w.name, w.module, trigger, config, conditions, actions, w.isEnabled,
    w.haltOnFailure, cap, cooldown⟩, ?_, rfl, hconditions, hactions⟩
  have id : nullable uuid (.uuid w.id) = .valid (some w.id) := by
    have read : uuid (.uuid w.id) = .valid w.id := uuid_text hid
    exact congrArg (some <$> ·) read
  have fires : oneOf Trigger.table (.str w.trigger) = .valid trigger := by
    rw [htrigger, oneOf, trigger.lookup_name]
  have listed : decodeActions (w.actions.orElse (.list [])) = .valid actions := hactions
  unfold StoredWorkflow.definition Workflow.decode object
  dsimp only
  rw [optional_eq rfl id, required_eq rfl (rfl : string (.str w.name) = .valid w.name),
    required_eq rfl (rfl : string (.str w.module) = .valid w.module), required_eq rfl fires,
    optional_eq rfl hconfig, optional_eq rfl hconditions, optional_eq rfl listed,
    optional_eq rfl (bool_bool w.isEnabled),
    optional_eq rfl (bool_bool w.haltOnFailure),
    optional_eq rfl (int_of_limit hcap), optional_eq rfl (int_of_limit hcooldown)]
  rfl

end StoredWorkflow

theorem dict_of_config (config : Option Fields) :
    ∃ read, dict ((Value.opt .obj config).orElse (.obj [])) = .valid read := by
  cases config with
  | none => exact ⟨[], rfl⟩
  | some fields =>
    cases fields with
    | nil => exact ⟨[], rfl⟩
    | cons f rest => exact ⟨f :: rest, rfl⟩

structure WorkflowDraft.Fills (d : WorkflowDraft) (w : StoredWorkflow) : Prop where
  trigger : w.trigger = d.trigger.name
  config : w.config = .obj d.config
  conditions : w.conditions = Condition.encode? d.conditions
  actions : w.actions = encodeActions d.actions
  cap : w.runCountCap = .opt .int d.runCountCap
  cooldown : w.cooldownSeconds = .opt .int d.cooldownSeconds

section Stored
variable {d : WorkflowDraft} {c : WorkflowChange} {w changed : StoredWorkflow}

/-- A workflow that is stored from a draft is readable. -/
theorem WorkflowDraft.IsRead.stored (h : d.IsRead) (hw : d.Fills w) : w.IsReadable where
  trigger := ⟨d.trigger, hw.trigger⟩
  config := hw.config ▸ dict_of_config (some d.config)
  conditions := ⟨_, hw.conditions ▸ h.conditions⟩
  actions := ⟨_, hw.actions ▸ h.actions⟩
  cap := ⟨_, hw.cap ▸ h.cap⟩
  cooldown := ⟨_, hw.cooldown ▸ h.cooldown⟩

/-- A workflow that is stored from a draft is configured. -/
theorem WorkflowDraft.IsRead.configured (h : d.IsRead) (hw : d.Fills w) : w.IsConfigured := by
  intro config hconfig
  obtain rfl : d.config = config := by simpa using hw.config.symm.trans hconfig
  exact h.config

/-- A readable workflow stays readable when a change is applied to it. -/
theorem WorkflowChange.IsRead.applied (h : c.IsRead) (hw : w.IsReadable)
    (hchanged : c.applied? w = some changed) : changed.IsReadable := by
  unfold applied? at hchanged
  simp only [Option.bind_eq_bind, Option.bind_eq_some_iff] at hchanged
  obtain ⟨name, -, isEnabled, -, halts, -, priority, -, heq⟩ := hchanged
  obtain rfl := Option.some.inj heq
  refine ⟨hw.trigger, ?_, ?_, ?_, ?_, ?_⟩
  · cases hc : c.config with
    | none => simpa [hc] using hw.config
    | some config => simpa [hc] using dict_of_config config
  · cases hc : c.conditions with
    | none => simpa [hc] using hw.conditions
    | some conditions => exact ⟨_, by simpa [hc] using h.conditions _ hc⟩
  · cases hc : c.actions with
    | none => simpa [hc] using hw.actions
    | some given =>
      cases given with
      | none => exact ⟨[], by simp [Value.opt]; rfl⟩
      | some actions => exact ⟨_, by simpa [hc, Value.opt] using h.actions _ hc⟩
  · cases hc : c.runCountCap with
    | none => simpa [hc] using hw.cap
    | some limit => exact ⟨_, by simpa [hc] using h.cap _ hc⟩
  · cases hc : c.cooldownSeconds with
    | none => simpa [hc] using hw.cooldown
    | some limit => exact ⟨_, by simpa [hc] using h.cooldown _ hc⟩

def WorkflowChange.IsConfigured (c : WorkflowChange) : Prop :=
  ∀ config, c.config = some (some config) → configRule? config = none

/-- A workflow stays configured when a change is applied whose configuration is in order. -/
theorem WorkflowChange.IsConfigured.applied (hc : c.IsConfigured) (hw : w.IsConfigured)
    (hchanged : c.applied? w = some changed) : changed.IsConfigured := by
  unfold applied? at hchanged
  simp only [Option.bind_eq_bind, Option.bind_eq_some_iff] at hchanged
  obtain ⟨name, -, isEnabled, -, halts, -, priority, -, heq⟩ := hchanged
  obtain rfl := Option.some.inj heq
  intro config hconfig
  cases hgiven : c.config with
  | none => exact hw config (by simpa [hgiven] using hconfig)
  | some given =>
    cases given with
    | none => simp [hgiven, Value.opt] at hconfig
    | some fields =>
      obtain rfl : fields = config := by simpa [hgiven, Value.opt] using hconfig
      exact hc _ hgiven

end Stored

end RecordFlow
