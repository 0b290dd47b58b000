import RecordFlow.Proofs.Session.Command
import RecordFlow.Proofs.Workflow.Readable

/-! # Sessions that edit workflows

A session may store workflows from drafts and change them, again and again, with drafts and changes
that were read from requests. Whatever of it succeeds, every workflow that is stored can be read. Its
configuration is one that a draft may have as long as no change brings another: a change is taken
with any.
-/
namespace RecordFlow
open RecordFlow.Flow

/-! ## Edits -/

structure WorkflowDraft.Adds (d : WorkflowDraft) (w : World) (r : StoredWorkflow) (v : World) : Prop where
  fills : d.Fills r
  id : r.id = TableName.workflow.rowId (w.nextNumber .workflow)
  lastScheduledAt : r.lastScheduledAt = none
  tables : v.tables = { w.tables with workflows := w.tables.workflows ++ [r] }
  settings : v.settings = w.settings
  numbers : v.numbers = (w.useNumber .workflow).numbers

theorem WorkflowDraft.create_ends (d : WorkflowDraft) (actor : String) (w : World) :
    Ends (d.create actor) w (fun r v => d.Adds w r v)
      fun _ v => v.saved = w.saved ∧ v.settings = w.settings
        ∧ v.numbers = (w.useNumber .workflow).numbers := by
  unfold create
  refine .step (a := w.clock.wall) (t := w) rfl ?_
  refine (insert_ends _ w).bind (fun _ v hv => ?_) ?_
  · rw [hv]
    exact ⟨rfl, rfl, rfl⟩
  · rintro r v - ⟨rfl, rfl⟩
    refine Looks.followed (.shaped anyCause _) (fun _ => ⟨rfl, rfl, rfl⟩) fun after => ?_
    exact .of_ok rfl ⟨⟨rfl, rfl, rfl, rfl, rfl, rfl⟩, rfl, rfl, rfl, rfl, rfl⟩

theorem WorkflowChange.apply_ends (c : WorkflowChange) (id : Uuid) (actor : String) (w : World) :
    Ends (c.apply id actor) w
      (fun changed v => (∃ r ∈ w.tables.workflows, c.applied? r = some changed)
        ∧ v.tables.workflows = w.tables.workflows.map (overwrite changed))
      fun _ v => v.saved = w.saved := by
  unfold apply
  refine .fetched (fun _ => rfl) fun r hr _ => ?_
  refine Looks.followed (.shaped anyCause _) (fun _ => rfl) fun before => ?_
  split
  · exact .throw rfl
  · next changed hchanged =>
    refine (store_ends changed w).bind (fun _ _ h => h.1 ▸ rfl) ?_
    rintro - _ - rfl
    refine Looks.followed (.shaped anyCause _) (fun _ => rfl) fun after => ?_
    exact .of_ok rfl ⟨⟨r, hr, hchanged⟩, rfl⟩

inductive Command.IsEdit : Command → Prop where
  | create (request : Value) {d : WorkflowDraft} (actor : String)
    (hread : WorkflowDraft.decode request = .valid d) : IsEdit (.errand (.createWorkflow d actor))
  | change (request : Value) {c : WorkflowChange} (workflow : Uuid) (actor : String)
    (hread : WorkflowChange.decode request = .valid c) :
    IsEdit (.errand (.changeWorkflow workflow c actor))

def Command.ChangesBy (allowed : WorkflowChange → Prop) (command : Command) : Prop :=
  ∀ workflow c actor, command = .errand (.changeWorkflow workflow c actor) → allowed c

/-! ## What edits keep -/

/-- What holds of every workflow of a world, and still does once what is not saved is undone. -/
structure World.EachWorkflow (P : StoredWorkflow → Prop) (w : World) : Prop where
  stored : ∀ r ∈ w.tables.workflows, P r
  saved : ∀ r ∈ w.saved.workflows, P r

section Edits
variable {P : StoredWorkflow → Prop} {w : World}

theorem World.IsNew.eachWorkflow (hw : w.IsNew) : w.EachWorkflow P where
  stored := by
    rw [hw.1]
    exact List.forall_mem_nil P
  saved := by
    rw [hw.2]
    exact List.forall_mem_nil P

/-- What a command that succeeds leaves stored it saves, and one that fails leaves what was saved. -/
theorem Command.after_eachWorkflow {c : Command} (hw : w.EachWorkflow P)
    (h : Ends c.run w (fun _ v => ∀ r ∈ v.tables.workflows, P r) fun _ v => v.saved = w.saved) :
    (c.after w).EachWorkflow P := by
  unfold after
  cases hrun : c.run w with
  | ok _ v =>
    have stored : ∀ r ∈ v.tables.workflows, P r := h.ok_of hrun
    exact ⟨stored, stored⟩
  | error e v =>
    have kept : ∀ r ∈ v.saved.workflows, P r := h.bad_of hrun ▸ hw.saved
    exact ⟨kept, kept⟩

/-- One edit keeps what drafts establish and the changes that are allowed keep. -/
theorem Command.IsEdit.after {c : Command} (hc : c.IsEdit) (hw : w.EachWorkflow P)
    {allowed : WorkflowChange → Prop} (hallowed : c.ChangesBy allowed)
    (hdraft : ∀ {d : WorkflowDraft} {r}, d.IsRead → d.Fills r → P r)
    (hchange : ∀ {c : WorkflowChange} {r changed}, c.IsRead → allowed c → P r →
      c.applied? r = some changed → P changed) :
    (c.after w).EachWorkflow P := by
  refine Command.after_eachWorkflow hw ?_
  cases hc with
  | create request actor hread =>
    refine Ends.map ((WorkflowDraft.create_ends _ actor w).mono ?_ fun _ _ h => h.1)
    intro row v adds r hr
    rw [adds.tables, List.mem_append, List.mem_singleton] at hr
    rcases hr with hr | rfl
    · exact hw.stored r hr
    · exact hdraft (WorkflowDraft.isRead_of_decode hread) adds.fills
  | change request workflow actor hread =>
    refine Ends.map ((WorkflowChange.apply_ends _ workflow actor w).mono ?_ fun _ _ h => h)
    rintro changed v ⟨⟨before, hbefore, happlied⟩, hrows⟩ r hr
    rw [hrows] at hr
    obtain ⟨s, hs, rfl⟩ := List.mem_map.mp hr
    unfold overwrite
    split
    · exact hchange (WorkflowChange.isRead_of_decode hread) (hallowed _ _ _ rfl)
        (hw.stored before hbefore) happlied
    · exact hw.stored s hs

theorem World.EachWorkflow.afterAll (hw : w.EachWorkflow P) {session : List Command}
    (hedits : ∀ c ∈ session, c.IsEdit) {allowed : WorkflowChange → Prop}
    (hallowed : ∀ c ∈ session, c.ChangesBy allowed)
    (hdraft : ∀ {d : WorkflowDraft} {r}, d.IsRead → d.Fills r → P r)
    (hchange : ∀ {c : WorkflowChange} {r changed}, c.IsRead → allowed c → P r →
      c.applied? r = some changed → P changed) :
    (w.afterAll session).EachWorkflow P := by
  induction session generalizing w with
  | nil => exact hw
  | cons c rest ih =>
    rw [List.forall_mem_cons] at hedits hallowed
    exact ih (hedits.1.after hw hallowed.1 hdraft hchange) hedits.2 hallowed.2

/-- Every workflow that a session of edits leaves can be read: its conditions and actions are read
as some draft or change had them, and its limits are absent or positive. -/
theorem World.afterAll_isReadable (hw : w.IsNew) {session : List Command}
    (hedits : ∀ c ∈ session, c.IsEdit) :
    ∀ r ∈ (w.afterAll session).tables.workflows, r.IsReadable := by
  have free : ∀ c ∈ session, c.ChangesBy fun _ => True := fun _ _ _ _ _ _ => trivial
  exact (hw.eachWorkflow.afterAll hedits free WorkflowDraft.IsRead.stored
    fun hread _ => hread.applied).stored

/-- If each change that brings a configuration brings one that is in order, every workflow stays
configured as a draft has to be. -/
theorem World.afterAll_isConfigured (hw : w.IsNew) {session : List Command}
    (hedits : ∀ c ∈ session, c.IsEdit)
    (horder : ∀ c ∈ session, c.ChangesBy WorkflowChange.IsConfigured) :
    ∀ r ∈ (w.afterAll session).tables.workflows, r.IsConfigured :=
  (hw.eachWorkflow.afterAll hedits horder
    WorkflowDraft.IsRead.configured fun _ hchange => hchange.applied).stored

end Edits

def halfHourly : WorkflowDraft where
  name := "greet"
  description := none
  module := "deals"
  isEnabled := true
  trigger := .scheduled
  config := [("interval_minutes", .int 30)]
  conditions := none
  actions := []
  haltOnFailure := true
  runCountCap := none
  cooldownSeconds := none
  priority := 0

def incessant : WorkflowChange where
  name := none
  description := none
  isEnabled := none
  config := some (some [("interval_minutes", .int 0)])
  conditions := none
  actions := none
  haltOnFailure := none
  runCountCap := none
  cooldownSeconds := none
  priority := none

def rearranged : List Command := [
  .errand (.createWorkflow halfHourly "admin"),
  .errand (.changeWorkflow (TableName.workflow.rowId 1) incessant "admin")]

theorem rearranged_isEdit : ∀ c ∈ rearranged, c.IsEdit := by
  have drafted : WorkflowDraft.decode halfHourly.encode = .valid halfHourly := rfl
  have changed : WorkflowChange.decode (.obj [("trigger_config", .obj [("interval_minutes", .int 0)])])
      = .valid incessant := rfl
  rintro c (_ | ⟨_, _ | ⟨_, ⟨⟩⟩⟩)
  · exact .create _ "admin" drafted
  · exact .change _ _ "admin" changed

/-- An edit may break what drafts are held to: a change brings the interval that a draft may not have. -/
theorem World.afterAll_unconfigured : (∀ c ∈ rearranged, c.IsEdit)
    ∧ ∃ r ∈ (World.fresh.afterAll rearranged).tables.workflows, ¬r.IsConfigured := by
  have stored : (World.fresh.afterAll rearranged).tables.workflows.map StoredWorkflow.config
      = [.obj [("interval_minutes", .int 0)]] := rfl
  obtain ⟨r, hr, hconfig⟩ := List.map_eq_singleton_iff.mp stored
  refine ⟨rearranged_isEdit, r, hr ▸ List.mem_singleton_self r, fun h => ?_⟩
  exact absurd (h _ hconfig) (by decide)

end RecordFlow
