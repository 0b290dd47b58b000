import Mathlib.Data.List.Induction
import RecordFlow.Catalog
import RecordFlow.Proofs.Approval.Acting
import RecordFlow.Proofs.Job.Upheld

/-! # Sessions

A session is any sequence of commands, each of them saved if it succeeds and undone, as far as it was
not saved before, if it fails. Whatever the commands are, moves and approvals follow their course.

Errands are all that can be asked for beside moves and approvals: writing to records, storing
definitions, running workflows, and the work in the background. None of it touches blueprints, moves and
approvals. What only looks at the tables is left out.
-/
namespace RecordFlow
open RecordFlow.Flow

/-! ## Errands -/

/-- An operation that is not about moves and approvals. The world around the tables may change too. -/
inductive Errand where
  | launch (d : Record.Draft)
  | revise (record : Uuid) (changes : Fields)
  | create (d : Record.Draft)
  | patch (record : Uuid) (changes : Fields) (seen : Int) (rivals : Nat)
  | addChild (record : Uuid) (d : Record.ChildDraft)
  | dispatch (channel : String) (r : MessageRequest)
  | createWorkflow (d : WorkflowDraft) (actor : String)
  | changeWorkflow (workflow : Uuid) (change : WorkflowChange) (actor : String)
  | createRule (d : RuleDraft) (actor : String)
  | createCadence (d : CadenceDraft) (actor : String)
  | execute (c : Context) (w : Workflow) (r : Record)
  | trigger (trigger : String) (r : Record) (previous : Option Record)
  | nest (c : Context) (trigger : String) (r : Record) (previous : Option Record)
  | start (c : Context) (actions : List Action) (halts : Bool)
  | perform (c : Context) (a : Action)
  | assign (rule : Uuid) (r : Record) (advance : Bool) (rivals : Nat)
  | enroll (cadence record : Uuid) (enrolledBy : Value)
  | unenroll (record : Uuid) (cadence : Option Uuid) (reason : String) (actor : Option String)
  | pause (enrollment : Uuid) (actor : Option String)
  | resume (enrollment : Uuid) (actor : Option String)
  | schedule (d : Job.Draft)
  | claim (job : Uuid) (worker : Option String)
  | cancel (job : Uuid)
  | process (cutoff : Calendar.Instant) (limit : Option Int) (worker : Option String)
  | scheduleDue (m : Calendar.Moment)
  | adjust (clock : Calendar.Moment) (settings : Settings) (wiring : Wiring) (ambient : Ambient)
    (replies : List Reply)

namespace Errand

def run : Errand → Flow Unit
  | launch d => discard (Record.launch d)
  | revise record changes => discard (Record.revise record changes)
  | create d => discard (Record.create d)
  | patch record changes seen rivals =>
    discard (amongRivals rivals (Record.patch record changes seen))
  | addChild record d => discard (Record.createChild record d)
  | dispatch channel r => discard (Message.dispatch channel r)
  | createWorkflow d actor => discard (d.create actor)
  | changeWorkflow workflow change actor => discard (change.apply workflow actor)
  | createRule d actor => discard (d.create actor)
  | createCadence d actor => discard (d.create actor)
  | execute c w r => discard (w.executeIn c r)
  | trigger name r previous => discard (Workflow.executeTriggered name r previous)
  | nest c name r previous =>
    discard (Scoped.runIn c (Workflow.executeNested c.reaction name r previous))
  | start c actions halts => discard (Run.start c actions halts)
  | perform c a => discard (Scoped.runIn c (a.perform c.reaction))
  | assign rule r advance rivals => discard (amongRivals rivals (resolveAssignment rule r advance))
  | enroll cadence record enrolledBy => discard (Enrollment.enroll cadence record enrolledBy)
  | unenroll record cadence reason actor =>
    discard (Enrollment.unenroll record cadence reason actor)
  | pause enrollment actor => discard (Enrollment.pause enrollment actor)
  | resume enrollment actor => discard (Enrollment.resume enrollment actor)
  | schedule d => discard (Job.schedule d)
  | claim job worker => discard (Job.claimPending job worker)
  | cancel job => discard (Job.cancelPending job)
  | process cutoff limit worker => discard (Job.process cutoff limit worker)
  | scheduleDue m => discard (Workflow.scheduleDue m)
  | adjust clock settings wiring ambient replies => modify fun w =>
    { w with clock, settings, wiring, ambient, replies }

def sweeps : Errand → Bool
  | claim _ _ | process _ _ _ => true
  | _ => false

def isPlain : Errand → Bool
  | createWorkflow _ _ | changeWorkflow _ _ _ | execute _ _ _ | trigger _ _ _ | nest _ _ _ _
  | start _ _ _ | perform _ _ | adjust _ _ _ _ _ => false
  | _ => true

end Errand

/-! ## What errands uphold -/

section Parts
variable {R : World → World → Prop} [Mild R]

theorem Upholds.discard {α : Type} {part : Flow α} (h : Upholds R part) :
    Upholds R (discard part : Flow Unit) :=
  .map (fun _ => ()) h

theorem upholds_amongRivals {α : Type} {part : Flow α} (h : Upholds R part) (writes : Nat) :
    Upholds R (amongRivals writes part) := by
  intro w
  have ended : Ends (try part finally modify fun w => { w with rivalWrites := 0 } : Flow α)
      { w with rivalWrites := writes } (fun _ v => R w v) fun _ v => R w v.rolledBack :=
    .tryFinally (h _) (fun _ v hv => .of_ok (a := ()) rfl (Mild.amongst writes w v hv))
      fun _ v hv => .of_ok (a := ()) rfl (Mild.amongst writes w v.rolledBack hv)
  exact .step (a := ()) rfl ended

theorem upholds_catalogued {actor entityType : String} {id : Uuid} {action : String}
    {after : Value} (h : entityType ≠ "automation.run") :
    Upholds R (catalogued actor entityType id action after) :=
  .bind (upholds_note h) fun _ => upholds_commit

theorem WorkflowDraft.upholds_create [Indifferent R StoredWorkflow] (d : WorkflowDraft) (actor : String) :
    Upholds R (d.create actor) := by
  unfold create
  refine .bind (.looks .now) fun t => .bind (Incidental.upholds (incidental_insert _)) fun w => ?_
  refine .bind (.looks (.shaped anyCause _)) fun after => ?_
  exact .bind (upholds_catalogued (by decide)) fun _ => .pure _

theorem WorkflowChange.upholds_apply [Indifferent R StoredWorkflow] (change : WorkflowChange)
    (id : Uuid) (actor : String) : Upholds R (change.apply id actor) := by
  unfold apply
  refine .bind (.looks (.fetch anyCause StoredWorkflow id)) fun w => ?_
  refine .bind (.looks (.shaped anyCause _)) fun before => ?_
  split
  · exact .throw _
  · refine .bind (Incidental.upholds (incidental_store _)) fun _ => ?_
    refine .bind (.looks (.shaped anyCause _)) fun after => ?_
    refine .bind (upholds_note (by decide)) fun _ => ?_
    exact .bind upholds_commit fun _ => .pure _

theorem RuleDraft.upholds_create (d : RuleDraft) (actor : String) : Upholds R (d.create actor) :=
  .bind (Incidental.upholds (incidental_insert _)) fun _ =>
    .bind (upholds_catalogued (by decide)) fun _ => .pure _

theorem CadenceDraft.upholds_create (d : CadenceDraft) (actor : String) :
    Upholds R (d.create actor) :=
  .bind (Incidental.upholds (incidental_insert _)) fun _ =>
    .bind (upholds_catalogued (by decide)) fun _ => .pure _

end Parts

section Errands
variable {R : World → World → Prop}

/-- What jobs abide by is upheld by every plain errand, if it is upheld by those that are about single
enrollments and jobs. -/
theorem Errand.upholds_plain [Abiding R] (x : Errand) (hplain : x.isPlain = true)
    (hpause : ∀ id actor, Upholds R (Enrollment.pause id actor))
    (hresume : ∀ id actor, Upholds R (Enrollment.resume id actor))
    (hclaim : x.sweeps = true → ∀ id worker, Upholds R (Job.claimPending id worker))
    (hcancel : ∀ id, x = .cancel id → Upholds R (Job.cancelPending id))
    (hprocess : x.sweeps = true → ∀ cutoff limit worker,
      Upholds R (Job.process cutoff limit worker)) :
    Upholds R x.run := by
  cases x with
  | launch d => exact (Record.upholds_launch d).discard
  | revise record changes => exact (Record.upholds_revise record changes).discard
  | create d => exact (Record.upholds_create d).discard
  | patch record changes seen rivals =>
    have patches : Upholds R (Record.patch record changes seen) :=
      Incidental.upholds (incidental_patch _ _ _)
    exact (upholds_amongRivals patches _).discard
  | addChild record d => exact (Incidental.upholds (incidental_createChild record d)).discard
  | dispatch channel r => exact (Incidental.upholds (incidental_dispatch channel r)).discard
  | createRule d actor => exact (d.upholds_create actor).discard
  | createCadence d actor => exact (d.upholds_create actor).discard
  | assign rule r advance rivals =>
    have resolves : Upholds R (resolveAssignment rule r advance) :=
      Incidental.upholds (incidental_resolveAssignment _ _ _)
    exact (upholds_amongRivals resolves _).discard
  | enroll cadence record enrolledBy =>
    exact (Mild.enrolls cadence record enrolledBy).discard
  | unenroll record cadence reason actor =>
    exact (Mild.unenrolls record cadence reason actor).discard
  | pause enrollment actor => exact (hpause enrollment actor).discard
  | resume enrollment actor => exact (hresume enrollment actor).discard
  | schedule d => exact (Incidental.upholds (Schedules.schedule d)).discard
  | claim job worker => exact (hclaim rfl job worker).discard
  | cancel job => exact (hcancel job rfl).discard
  | process cutoff limit worker => exact (hprocess rfl cutoff limit worker).discard
  | scheduleDue m => exact (Workflow.upholds_scheduleDue m).discard
  | createWorkflow | changeWorkflow | execute | trigger | nest | start | perform | adjust =>
    cases hplain

/-- What runs uphold is upheld by every errand, if it is upheld by those that are about single
enrollments and jobs. -/
theorem Errand.upholds_run [Bearing R] [Timeless R] (x : Errand)
    (hpause : ∀ id actor, Upholds R (Enrollment.pause id actor))
    (hresume : ∀ id actor, Upholds R (Enrollment.resume id actor))
    (hclaim : x.sweeps = true → ∀ id worker, Upholds R (Job.claimPending id worker))
    (hcancel : ∀ id, x = .cancel id → Upholds R (Job.cancelPending id))
    (hprocess : x.sweeps = true → ∀ cutoff limit worker,
      Upholds R (Job.process cutoff limit worker)) :
    Upholds R x.run := by
  by_cases hplain : x.isPlain = true
  · exact x.upholds_plain hplain hpause hresume hclaim hcancel hprocess
  cases x with
  | createWorkflow d actor => exact (d.upholds_create actor).discard
  | changeWorkflow workflow change actor => exact (change.upholds_apply workflow actor).discard
  | execute c w r => exact (Workflow.upholds_executeIn c w r).discard
  | trigger name r previous => exact (Workflow.upholds_executeTriggered name r previous).discard
  | nest c name r previous =>
    have nested : UpholdsIn R (Workflow.executeNested c.reaction name r previous) :=
      Workflow.upholdsIn_executeNested (Workflow.upholdsRuns_reaction _) name r previous
    exact (nested.runIn c).discard
  | start c actions halts => exact (Run.upholds_start c actions halts).discard
  | perform c a =>
    have performed : UpholdsIn R (a.perform c.reaction) :=
      a.upholdsIn_perform (Workflow.upholdsReaction_reaction _)
    exact (performed.runIn c).discard
  | adjust clock settings wiring ambient replies =>
    exact .modify fun w => Timeless.adjusts w clock settings wiring ambient replies
  | _ => exact absurd rfl hplain

/-- Whatever is not about jobs and enrollments is upheld by every errand. -/
theorem Errand.upholds_any [Bearing R] [Timeless R] [Indifferent R Job] [Indifferent R Enrollment]
    (x : Errand) : Upholds R x.run :=
  x.upholds_run (fun id actor => Incidental.upholds (incidental_pause id actor))
    (fun id actor => Incidental.upholds (incidental_resume id actor))
    (fun _ => Job.upholds_claimPending)
    (fun id _ => Incidental.upholds (incidental_cancelPending id)) fun _ => Job.upholds_process

end Errands

/-! ## Commands -/

def Approval.overtake (id : Uuid) : Flow Unit := do
  update id fun a : Approval => { a with version := a.version + 1 }
  commit

/-- What can be asked for. A blueprint is referred to by its identifier or by the module of the
record; another writer may get in between loading an approval and acting on it. -/
inductive Command where
  | createBlueprint (d : BlueprintDraft) (actor : String)
  | createProcess (d : ProcessDraft) (actor : String)
  | move (blueprint : Option Uuid) (record : Uuid) (toStage : String) (updates : Fields)
    (actor : Option String)
  | executeMove (approval : Uuid) (actor : Option String)
  | submit (process record : Uuid) (requestedBy : Option String) (about : Fields)
  | act (approval : Uuid) (r : ApprovalRequest) (overtaken : Bool)
  | resubmit (approval : Uuid) (actor : String) (comment : Option String) (overtaken : Bool)
  | expire (m : Calendar.Moment) (overtaken : Option Uuid)
  | tick (m : Calendar.Moment)
  | errand (x : Errand)

namespace Command

def blueprintRef : Option Uuid → BlueprintRef
  | some id => .byId id
  | none => .ofModule

def run : Command → Flow Unit
  | createBlueprint d actor => discard (d.create actor)
  | createProcess d actor => discard (d.create actor)
  | move blueprint record toStage updates actor =>
    discard (Blueprint.move (blueprintRef blueprint) record toStage updates actor)
  | executeMove approval actor => discard (Approval.executeMove approval actor)
  | submit process record requestedBy about =>
    discard (Approval.submit process record requestedBy about)
  | act approval r overtaken => do
    let a ← fetch Approval approval
    if overtaken then Approval.overtake approval
    discard (a.act r)
  | resubmit approval actor comment overtaken => do
    let a ← fetch Approval approval
    if overtaken then Approval.overtake approval
    discard (a.resubmit actor comment)
  | expire m overtaken => do
    let loaded ← Approval.expirable
    if let some id := overtaken then Approval.overtake id
    discard (Approval.expire m loaded)
  | tick m => discard (Tick.run m)
  | errand x => x.run

def sweeps : Command → Bool
  | tick _ => true
  | errand x => x.sweeps
  | _ => false

def after (c : Command) (w : World) : World :=
  match c.run w with
  | .ok _ v => v.committed
  | .error _ v => v.rolledBack

/-- What a command may approve and create: the decisions of approvers on a step that is open, and
what it answers. -/
def licence (c : Command) (w : World) : Licence where
  approves s e := ∃ r overtaken a, c = .act s.id r overtaken
    ∧ w.tables.approvals.find? (fun a => a.id = s.id) = some a ∧ a.standing = s
    ∧ r.verdict = .approve ∧ a.isApprover r.actorId r.actorRole = .ok true
    ∧ e.actor = some r.actorId ∧ e.comment = r.comment
  creates p := ∃ d actor v, c = .createProcess d actor ∧ d.create actor w = .ok p v

end Command

def World.afterAll (w : World) (session : List Command) : World :=
  session.foldl (fun w c => c.after w) w

structure World.Sound (w : World) : Prop where
  saved : w.saved = w.tables
  free : w.RunsFree
  given : w.tables.register.Given (w.nextNumber .approval)

namespace World.Sound
variable {w v : World} {allowed : Licence}

theorem settled (hw : w.Sound) : w.Settled := ⟨by rw [hw.saved], by rw [hw.saved], hw.free⟩

theorem filed (hw : w.Sound) : w.Filed := hw.settled.filed

theorem course (hw : w.Sound) (h : Course allowed w v) (hv : v.saved = v.tables) : v.Sound where
  saved := hv
  free := h.filed.free
  given := by
    refine h.turns.keep (P := Register.Given (v.nextNumber .approval)) ?_ ?_
    · exact fun _ _ hturn hgiven => hturn.given hgiven
    · exact hw.given.mono (h.numbers .approval)

end World.Sound

/-! ## How commands end -/

def Concludes {α : Type} (allowed : Licence) (part : Flow α) (w : World) : Prop :=
  Ends part w (fun _ v => Course allowed w v.committed) fun _ v => Course allowed w v.rolledBack

theorem Follows.concludes {α : Type} {allowed : Licence} {part : Flow α} {w : World}
    (h : Follows allowed w part w) : Concludes allowed part w :=
  Ends.mono h (fun _ _ hv => hv.committed) fun _ _ hv => hv

theorem Concludes.discard {α : Type} {allowed : Licence} {part : Flow α} {w : World}
    (h : Concludes allowed part w) : Concludes allowed (discard part : Flow Unit) w :=
  Ends.map h

theorem Follows.discard {α : Type} {allowed : Licence} {part : Flow α} {w v : World}
    (h : Follows allowed w part v) : Follows allowed w (discard part : Flow Unit) v :=
  Ends.map h

section Commands
variable {w : World} (hw : w.Sound)
include hw

/-- A definition is stored together with its audit entry, and saved. -/
theorem concludes_catalogued {ρ : Type} [Stored ρ] {allowed : Licence} (build : Uuid → ρ)
    (actor entityType action : String) (state : ρ → Value)
    (hruns : ∀ (rows : List ρ) (t : Tables), (Stored.setRows rows t).runs = t.runs)
    (hturn : ∀ row v, (do
        let row ← Flow.insert build
        catalogued actor entityType (Stored.id row) action (state row)
        return row : Flow ρ) w = .ok row v →
      Register.Turn allowed (v.nextNumber .approval) w.tables.register
        (Stored.setRows (Stored.rows w.tables ++ [row]) w.tables).register) :
    Concludes allowed (do
      let row ← Flow.insert build
      catalogued actor entityType (Stored.id row) action (state row)
      return row : Flow ρ) w := by
  have numbered (t : TableName) : w.nextNumber t ≤ (w.useNumber (Stored.name ρ)).nextNumber t :=
    w.nextNumber_le_useNumber _ t
  have free {v : World} (hnumbers : v.numbers = (w.useNumber (Stored.name ρ)).numbers)
      (hsame : v.tables.runs = w.tables.runs) : v.RunsFree := fun n hn r hr =>
    hw.free n (Nat.le_trans (numbered .run) (by
      rw [World.nextNumber.eq_def v, hnumbers] at hn
      exact hn)) r (hsame ▸ hr)
  cases hi : Flow.insert build w with
  | error e v =>
    obtain rfl := (insert_ends build w).bad_of hi
    refine .of_error (bind_error hi _) (.of_spared ⟨⟨rfl, rfl, ?_⟩, ?_, numbered⟩)
    · exact free rfl (congrArg Tables.runs hw.saved)
    · exact congrArg Tables.register hw.saved
  | ok row v =>
    obtain ⟨-, rfl⟩ := (insert_ends build w).ok_of hi
    have hsame := hruns (Stored.rows w.tables ++ [row]) w.tables
    refine .of_ok (bind_ok hi _) ⟨⟨rfl, rfl, free rfl hsame⟩, numbered, .single ?_⟩
    exact hturn row _ (bind_ok hi _)

theorem concludes_createBlueprint (allowed : Licence) (d : BlueprintDraft) (actor : String) :
    Concludes allowed (d.create actor) w := by
  unfold BlueprintDraft.create
  refine Ends.step (a := w.clock.wall) (t := w) rfl ?_
  exact concludes_catalogued hw _ _ _ _ _ (fun _ _ => rfl) fun row _ _ => .define row

theorem concludes_createProcess {allowed : Licence} (d : ProcessDraft) (actor : String)
    (hallowed : ∀ p v, d.create actor w = .ok p v → allowed.creates p) :
    Concludes allowed (d.create actor) w :=
  concludes_catalogued hw _ _ _ _ _ (fun _ _ => rfl) fun p v h => .create p (hallowed p v h)

theorem concludes_submit (allowed : Licence) (process record : Uuid) (requestedBy : Option String)
    (about : Fields) : Concludes allowed (Approval.submit process record requestedBy about) w :=
  Ends.mono (Approval.writes_submit process record requestedBy about hw.given)
    (fun _ _ h => ⟨h.1.filed_committed hw.filed, h.1.numbers, .single h.2⟩)
    fun _ _ h => h.course_rolledBack hw.filed

def Unrivalled (w v : World) : Prop :=
  v.Filed ∧ v.tables.register = w.tables.register ∧ v.numbers = w.numbers

omit hw in
theorem Unrivalled.course {v : World} {allowed : Licence} (h : Unrivalled w v) :
    Course allowed w v :=
  .of_spared ⟨h.1, h.2.1, fun t => Nat.le_of_eq (World.nextNumber_congr h.2.2 t).symm⟩

theorem unrivalled_refl : Unrivalled w w := ⟨hw.filed, rfl, rfl⟩

theorem overtake_ends (id : Uuid) :
    Ends (Approval.overtake id) w (fun _ v => Unrivalled w v) fun _ _ => False := by
  have counted (a : Approval) : (if decide (a.id = id) = true then
      { a with version := a.version + 1 } else a).standing = a.standing := by
    split <;> rfl
  refine .of_ok (a := ()) rfl ⟨⟨rfl, rfl, hw.free⟩, ?_, rfl⟩
  exact register_setRows w (standings_map counted _)

theorem follows_overtaken {α : Type} {allowed : Licence} {rest : Flow α} (overtaken : Bool)
    (id : Uuid) (hrest : ∀ v, Unrivalled w v → Follows allowed v rest v) :
    Follows allowed w (do
      if overtaken then Approval.overtake id
      rest) w := by
  have after (v : World) (h : Unrivalled w v) : Follows allowed w rest v := .anew h.course (hrest v h)
  cases overtaken with
  | false => exact after w (unrivalled_refl hw)
  | true =>
    exact (overtake_ends hw id).bind (fun _ _ h => h.elim) fun _ v _ h => after v h

end Commands

theorem fetched_ends (id : Uuid) (w : World) :
    Ends (fetch Approval id) w
      (fun a v => v = w ∧ w.tables.approvals.find? (fun a => a.id = id) = some a)
      fun _ v => v = w :=
  (fetch_ends id w).mono (fun _ _ h => h) fun _ _ h => h.1

theorem standing_mem {w : World} {id : Uuid} {a : Approval}
    (h : w.tables.approvals.find? (fun a => a.id = id) = some a) :
    a.standing ∈ w.tables.register.standings :=
  List.mem_map_of_mem (List.mem_of_find?_eq_some h)

theorem awaiting_expirable {w : World} {high : Nat} (h : w.tables.register.Given high) :
    Approval.Awaiting (w.tables.approvals.filter fun a => a.status = .pending && a.expiresAt.isSome)
      w.tables.register where
  there a ha := List.mem_map_of_mem (List.mem_filter.mp ha).1
  pending a ha := by
    have htest := (List.mem_filter.mp ha).2
    simp only [Bool.and_eq_true, decide_eq_true_eq] at htest
    exact htest.1
  distinct := by
    have ids : w.tables.register.standings.map Standing.id = w.tables.approvals.map Approval.id :=
      List.map_map
    exact (ids ▸ h.distinct).sublist (List.filter_sublist.map _)

namespace Command
variable {w : World}

/-- Expiry may be overtaken between loading the approvals and claiming them. -/
theorem follows_expire {allowed : Licence} (hw : w.Sound) (m : Calendar.Moment)
    (overtaken : Option Uuid) :
    Follows allowed w (expire m overtaken).run w := by
  have awaiting := awaiting_expirable hw.given
  refine Ends.step (t := w) rfl ?_
  cases overtaken with
  | none => exact (Approval.follows_expire hw.filed m awaiting).discard
  | some id =>
    refine (overtake_ends hw id).bind (fun _ _ h => h.elim) fun _ v _ h => ?_
    exact Follows.anew h.course (Approval.follows_expire h.1 m (h.2.1.symm ▸ awaiting)).discard

theorem follows_tick {allowed : Licence} (hw : w.Sound) (m : Calendar.Moment) :
    Follows allowed w (tick m).run w := by
  have swept : Follows allowed w (Tick.run m) w := by
    unfold Tick.run
    refine .bind (.of_sparing (.refl hw.filed) (Workflow.upholds_scheduleDue m)) fun scheduled u _ hu => ?_
    have hgiven : u.tables.register.Given (u.nextNumber .approval) :=
      hu.turns.keep (fun _ _ hturn hgiven => hturn.given hgiven)
        (hw.given.mono (hu.numbers .approval))
    refine Ends.step (t := u) rfl ?_
    have expired : Follows allowed w (Approval.expire m _) u :=
      .anew hu (Approval.follows_expire hu.filed m (awaiting_expirable hgiven))
    refine Follows.bind expired fun expired x _ hx => ?_
    exact .of_sparing hx (.bind (Job.upholds_process _ _ _) fun _ => .pure _)
  exact swept.discard

/-- Whatever is asked for, moves and approvals follow their course. -/
theorem run_concludes (c : Command) (hw : w.Sound) : Concludes (c.licence w) c.run w := by
  cases c with
  | createBlueprint d actor => exact (concludes_createBlueprint hw _ d actor).discard
  | createProcess d actor =>
    have created : Concludes ((createProcess d actor).licence w) (d.create actor) w :=
      concludes_createProcess hw d actor fun p v h => ⟨d, actor, v, rfl, h⟩
    exact created.discard
  | move blueprint record toStage updates actor =>
    have stored (b : Blueprint) : blueprintRef blueprint ≠ .given b := by
      cases blueprint <;> exact nofun
    exact (Blueprint.follows_move hw.settled hw.given stored record toStage updates
      actor).discard.concludes
  | executeMove approval actor =>
    exact (Approval.follows_executeMove hw.filed hw.given approval actor).discard.concludes
  | submit process record requestedBy about =>
    exact (concludes_submit hw _ process record requestedBy about).discard
  | act approval r overtaken =>
    refine Follows.concludes (.look (.refl hw.filed) (fetched_ends approval w) fun a ha => ?_)
    refine follows_overtaken hw overtaken approval fun v hv => ?_
    refine (Approval.follows_act hv.1 (hv.2.1 ▸ hw.given) (hv.2.1 ▸ standing_mem ha) r
      fun e hverdict happrover he => ?_).discard
    have hid : a.id = approval := id_of_find? ha
    exact ⟨r, overtaken, a, by rw [← hid]; rfl, by rw [← hid] at ha; exact ha, rfl, hverdict,
      happrover, he.actor, he.comment⟩
  | resubmit approval actor comment overtaken =>
    refine Follows.concludes (.look (.refl hw.filed) (fetched_ends approval w) fun a ha => ?_)
    refine follows_overtaken hw overtaken approval fun v hv => ?_
    exact (Approval.follows_resubmit hv.1 (hv.2.1 ▸ standing_mem ha) actor comment).discard
  | expire m overtaken => exact (follows_expire hw m overtaken).concludes
  | tick m => exact (follows_tick hw m).concludes
  | errand x => exact (Follows.of_sparing (.refl hw.filed) x.upholds_any).concludes

/-- After a command all is saved, and it followed a course. -/
theorem after_course (c : Command) (hw : w.Sound) :
    Course (c.licence w) w (c.after w) ∧ (c.after w).Sound := by
  have concludes := c.run_concludes hw
  unfold after
  cases h : c.run w with
  | ok _ v => exact ⟨concludes.ok_of h, hw.course (concludes.ok_of h) rfl⟩
  | error e v => exact ⟨concludes.bad_of h, hw.course (concludes.bad_of h) rfl⟩

end Command

/-! ## Sessions -/

def World.IsNew (w : World) : Prop := w.tables = .empty ∧ w.saved = .empty

theorem World.IsNew.sound {w : World} (h : w.IsNew) : w.Sound where
  saved := h.2.trans h.1.symm
  free n hn r hr := by
    rw [h.1] at hr
    cases hr
  given := by
    have hnone : w.tables.register.standings = [] := by rw [h.1]; rfl
    constructor
    · rw [hnone]
      exact List.nodup_nil
    · rw [hnone]
      exact nofun

theorem World.initial_isNew (clock : Calendar.Moment) (settings : Settings) (wiring : Wiring)
    (replies : List Reply) : (World.initial clock settings wiring replies).IsNew := ⟨rfl, rfl⟩

def World.fresh : World := .initial ⟨⟨0⟩, 0⟩ .standard .complete []

theorem World.fresh_isNew : World.fresh.IsNew := World.initial_isNew _ _ _ _

theorem World.Sound.afterAll {w : World} (hw : w.Sound) (session : List Command) :
    (w.afterAll session).Sound := by
  induction session generalizing w with
  | nil => exact hw
  | cons c rest ih => exact ih (c.after_course hw).2

theorem World.afterAll_append (w : World) (session : List Command) (c : Command) :
    w.afterAll (session ++ [c]) = c.after (w.afterAll session) :=
  List.foldl_append

/-- What is true of the register at first, and kept by each turn that some command of a session may
make, is true after the session. -/
theorem World.afterAll_keeps {w : World} (hw : w.Sound) (session : List Command)
    {P : List Command → Register → Prop} (hstart : P [] w.tables.register)
    (hlater : ∀ before c R, P before R → P (before ++ [c]) R)
    (hkeep : ∀ before c high R S, before ++ [c] <+: session → R.Given high →
      Register.Turn (c.licence (w.afterAll before)) high R S → P (before ++ [c]) R →
      P (before ++ [c]) S) :
    P session (w.afterAll session).tables.register := by
  induction session using List.reverseRecOn with
  | nil => exact hstart
  | append_singleton before c ih =>
    have hP := ih fun earlier d high R S hstart' =>
      hkeep earlier d high R S (hstart'.trans (List.prefix_append before [c]))
    have hsound := hw.afterAll before
    obtain ⟨course, -⟩ := c.after_course hsound
    rw [World.afterAll_append]
    have hgiven := hsound.given.mono (course.numbers .approval)
    have both : (w.afterAll before |> c.after).tables.register.Given
        ((c.after (w.afterAll before)).nextNumber .approval)
        ∧ P (before ++ [c]) (c.after (w.afterAll before)).tables.register := by
      refine course.turns.keep (P := fun R => R.Given _ ∧ P (before ++ [c]) R) ?_
        ⟨hgiven, hlater before c _ hP⟩
      exact fun R S hturn h => ⟨hturn.given h.1,
        hkeep before c _ R S (List.prefix_refl _) h.1 hturn h.2⟩
    exact both.2

end RecordFlow
