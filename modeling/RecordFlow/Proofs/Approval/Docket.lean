import Mathlib.Logic.Relation
import RecordFlow.Proofs.Approval.Upheld
import RecordFlow.Tick

/-! # The docket of approvals

What is done to approvals is told row by row: from which row an action goes on to which, and with
which entry. Every action counts the version of its approval up and enters one line, so a version
tells how many entries there are. What is done besides marks, at most, that the move of an approved
approval was carried out.
-/
namespace RecordFlow
open RecordFlow.Flow Calendar

structure Docket where
  processes : List ApprovalProcess
  approvals : List Approval
  entries : List ApprovalEntry

def Ledger.docket (l : Ledger) : Docket := ⟨l.processes, l.approvals, l.entries⟩

def Tables.docket (t : Tables) : Docket := t.ledger.docket

/-! ## What is done to an approval -/

def HasSteps (processes : List ApprovalProcess) (process : Uuid) (steps : List ApprovalStep) :
    Prop :=
  ∃ p, processes.find? (fun p => p.id = process) = some p
    ∧ storedApprovalSteps p.steps = .valid steps

/-- What is read of a process stays, whatever processes are created later. -/
theorem HasSteps.create {processes : List ApprovalProcess} {process : Uuid}
    {steps : List ApprovalStep} (h : HasSteps processes process steps) (p : ApprovalProcess) :
    HasSteps (processes ++ [p]) process steps := by
  obtain ⟨q, hq, hsteps⟩ := h
  refine ⟨q, ?_, hsteps⟩
  rw [List.find?_append, hq]
  rfl

def ApprovalRequest.entry (r : ApprovalRequest) (a : Approval) (id : Uuid) : ApprovalEntry :=
  ⟨id, a.id, a.step, some r.actorId, r.verdict.name, r.comment⟩

namespace Approval

def counted (a : Approval) : Approval := { a with version := a.version + 1 }

structure MayDecide (a : Approval) (steps : List ApprovalStep) (r : ApprovalRequest) : Prop where
  pending : a.status = .pending
  approver : a.isApprover r.actorId r.actorRole = .ok true
  comment : ∀ s, itemAt? steps a.step = some s → lacksComment s r = false

structure MayCancel (a : Approval) (r : ApprovalRequest) : Prop where
  undecided : a.status = .pending ∨ a.status = .changesRequested
  entitled : a.mayCancel r = .ok true

def Opens (a b : Approval) : Prop :=
  ∃ approvers named expiresAt, a.withApprovers approvers = .ok named
    ∧ b = { named with expiresAt := expiresAt }

/-- What becomes of an approval by an action, and what is entered with it. -/
inductive Proceeds (processes : List ApprovalProcess) (a : Approval) :
    ApprovalEntry → Approval → Prop
  | approve {r : ApprovalRequest} {steps : List ApprovalStep} {b : Approval} (id : Uuid)
      (hsteps : HasSteps processes a.process steps) (hverdict : r.verdict = .approve)
      (hmay : a.MayDecide steps r) (hnext : a.step + 1 < steps.length)
      (hopens : Opens { a.counted with step := a.step + 1 } b) :
      Proceeds processes a (r.entry a id) b
  | approveLast {r : ApprovalRequest} {steps : List ApprovalStep} (id : Uuid) (t : Instant)
      (hsteps : HasSteps processes a.process steps) (hverdict : r.verdict = .approve)
      (hmay : a.MayDecide steps r) (hlast : (steps.length : Int) ≤ a.step + 1) :
      Proceeds processes a (r.entry a id) (a.counted.resolve .approved (some r.actorId) t)
  | reject {r : ApprovalRequest} {steps : List ApprovalStep} (id : Uuid) (t : Instant)
      (hsteps : HasSteps processes a.process steps) (hverdict : r.verdict = .reject)
      (hmay : a.MayDecide steps r) :
      Proceeds processes a (r.entry a id) (a.counted.resolve .rejected (some r.actorId) t)
  | requestChanges {r : ApprovalRequest} {steps : List ApprovalStep} (id : Uuid)
      (hsteps : HasSteps processes a.process steps) (hverdict : r.verdict = .requestChanges)
      (hmay : a.MayDecide steps r) :
      Proceeds processes a (r.entry a id) { a.counted with status := .changesRequested }
  | cancel {r : ApprovalRequest} (id : Uuid) (t : Instant) (hverdict : r.verdict = .cancel)
      (hmay : a.MayCancel r) :
      Proceeds processes a (r.entry a id) (a.counted.resolve .cancelled (some r.actorId) t)
  | resubmit {b : Approval} (id : Uuid) (actor : String) (comment : Option String)
      (hmay : a.resubmission? actor = none) (hopens : Opens { a.counted with status := .pending } b) :
      Proceeds processes a ⟨id, a.id, a.step, some actor, "resubmit", comment⟩ b
  | expire (id : Uuid) (m : Moment) (hpending : a.status = .pending)
      (hover : a.isExpired m = true) :
      Proceeds processes a ⟨id, a.id, a.step, none, "expire", none⟩
        { a.counted with status := .expired, resolvedAt := some m.wall }

inductive Shifts : ApprovalStatus × Int → ApprovalStatus × Int → Prop
  | next (n : Int) : Shifts (.pending, n) (.pending, n + 1)
  | approve (n : Int) : Shifts (.pending, n) (.approved, n)
  | reject (n : Int) : Shifts (.pending, n) (.rejected, n)
  | requestChanges (n : Int) : Shifts (.pending, n) (.changesRequested, n)
  | cancel (n : Int) : Shifts (.pending, n) (.cancelled, n)
  | expire (n : Int) : Shifts (.pending, n) (.expired, n)
  | resubmit (n : Int) : Shifts (.changesRequested, n) (.pending, n)
  | withdraw (n : Int) : Shifts (.changesRequested, n) (.cancelled, n)

variable {a b : Approval} {e : ApprovalEntry} {processes : List ApprovalProcess}

theorem Opens.eq (h : a.Opens b) :
    b = { a with approvers := b.approvers, expiresAt := b.expiresAt } := by
  obtain ⟨approvers, named, expiresAt, hnamed, rfl⟩ := h
  unfold withApprovers at hnamed
  cases hm : a.approvers.mapping with
  | error cause => rw [hm] at hnamed; cases hnamed
  | ok kept => rw [hm] at hnamed; cases hnamed; rfl

theorem changesRequested_of_resubmission {actor : String} (h : a.resubmission? actor = none) :
    a.status = .changesRequested := by
  unfold resubmission? at h
  split at h
  · cases h
  · next hstatus => exact Decidable.not_not.mp hstatus

namespace Proceeds
variable (h : a.Proceeds processes e b)
include h

theorem kept : b.id = a.id ∧ b.version = a.version + 1 := by
  cases h with
  | approve _ _ _ _ _ hopens =>
    rw [hopens.eq]
    exact ⟨rfl, rfl⟩
  | resubmit _ _ _ _ hopens =>
    rw [hopens.eq]
    exact ⟨rfl, rfl⟩
  | _ => exact ⟨rfl, rfl⟩

theorem id : b.id = a.id := h.kept.1

theorem version : b.version = a.version + 1 := h.kept.2

theorem entered : e.approval = a.id ∧ e.step = a.step := by
  cases h <;> exact ⟨rfl, rfl⟩

/-- Only an approval that awaits a decision, or changes, goes on. -/
theorem undecided : a.status = .pending ∨ a.status = .changesRequested := by
  cases h with
  | approve _ _ _ hmay => exact .inl hmay.pending
  | approveLast _ _ _ _ hmay => exact .inl hmay.pending
  | reject _ _ _ _ hmay => exact .inl hmay.pending
  | requestChanges _ _ _ hmay => exact .inl hmay.pending
  | cancel _ _ _ hmay => exact hmay.undecided
  | resubmit _ _ _ hmay => exact .inr (changesRequested_of_resubmission hmay)
  | expire _ _ hpending => exact .inl hpending

theorem shifts : Shifts (a.status, a.step) (b.status, b.step) := by
  cases h with
  | approve _ _ _ hmay _ hopens =>
    rw [hopens.eq, hmay.pending]
    exact hmay.pending ▸ .next a.step
  | approveLast _ _ _ _ hmay => exact hmay.pending ▸ .approve a.step
  | reject _ _ _ _ hmay => exact hmay.pending ▸ .reject a.step
  | requestChanges _ _ _ hmay => exact hmay.pending ▸ .requestChanges a.step
  | cancel _ _ _ hmay =>
    rcases hmay.undecided with hstatus | hstatus
    · exact hstatus ▸ .cancel a.step
    · exact hstatus ▸ .withdraw a.step
  | resubmit _ _ _ hmay hopens =>
    rw [hopens.eq, changesRequested_of_resubmission hmay]
    exact .resubmit a.step
  | expire _ _ hpending => exact hpending ▸ .expire a.step

theorem create (p : ApprovalProcess) : a.Proceeds (processes ++ [p]) e b := by
  cases h with
  | approve id hsteps hverdict hmay hnext hopens =>
    exact .approve id (hsteps.create p) hverdict hmay hnext hopens
  | approveLast id t hsteps hverdict hmay hlast =>
    exact .approveLast id t (hsteps.create p) hverdict hmay hlast
  | reject id t hsteps hverdict hmay => exact .reject id t (hsteps.create p) hverdict hmay
  | requestChanges id hsteps hverdict hmay =>
    exact .requestChanges id (hsteps.create p) hverdict hmay
  | cancel id t hverdict hmay => exact .cancel id t hverdict hmay
  | resubmit id actor comment hmay hopens => exact .resubmit id actor comment hmay hopens
  | expire id m hpending hover => exact .expire id m hpending hover

end Proceeds

structure Submitted (a : Approval) (e : ApprovalEntry) : Prop where
  pending : a.status = .pending
  first : a.step = 0
  version : a.version = 1
  entered : e.approval = a.id

end Approval

/-- What an action did: the row that it was decided on, what was entered, and the row that is left. -/
structure Proceeding where
  seen : Approval
  entry : ApprovalEntry
  left : Approval

/-! ## What is done to the docket -/

namespace Docket

def put (D : Docket) (a : Approval) : Docket :=
  { D with approvals := D.approvals.map (overwrite a) }

def enter (D : Docket) (e : ApprovalEntry) : Docket := { D with entries := D.entries ++ [e] }

def mark (D : Docket) (id : Uuid) (test : Approval → Bool) (executed : Bool) : Docket :=
  { D with approvals := D.approvals.map fun a =>
    if a.id = id && test a then { a with executed := executed } else a }

def entriesOf (D : Docket) (id : Uuid) : List ApprovalEntry :=
  D.entries.filter fun e => e.approval = id

def IsApproved (D : Docket) (id : Uuid) : Prop :=
  ∀ a ∈ D.approvals, a.id = id → a.status = .approved

def act (D : Docket) (d : Proceeding) : Docket := (D.put d.left).enter d.entry

/-- The action was decided on the row as it is, and is one that may be done to it. -/
structure Admits (D : Docket) (d : Proceeding) : Prop where
  there : d.seen ∈ D.approvals
  proceeds : d.seen.Proceeds D.processes d.entry d.left

inductive Takes : Docket → List Proceeding → Docket → Prop
  | nil (D : Docket) : Takes D [] D
  | cons {D E : Docket} {d : Proceeding} {ds : List Proceeding} (hadmits : D.Admits d)
      (hrest : Takes (D.act d) ds E) : Takes D (d :: ds) E

inductive Marks (D : Docket) : Docket → Prop
  | mark {id : Uuid} (happroved : D.IsApproved id) (test : Approval → Bool) (executed : Bool) :
      Marks D (D.mark id test executed)

inductive Aside (D : Docket) : Docket → Prop
  | create (p : ApprovalProcess) : Aside D { D with processes := D.processes ++ [p] }
  | submit {a : Approval} {e : ApprovalEntry} (hnew : ∀ b ∈ D.approvals, b.id ≠ a.id)
      (hsubmitted : a.Submitted e) :
      Aside D { D with approvals := D.approvals ++ [a], entries := D.entries ++ [e] }
  | mark {E : Docket} (h : D.Marks E) : Aside D E

inductive Turn (D : Docket) : Docket → Prop
  | aside {E : Docket} (h : D.Aside E) : Turn D E
  | act {d : Proceeding} (h : D.Admits d) : Turn D (D.act d)

variable {D E : Docket}

theorem put_ids (D : Docket) (a : Approval) :
    (D.put a).approvals.map Approval.id = D.approvals.map Approval.id :=
  ids_map fun b _ => id_overwrite a b

theorem mark_ids (D : Docket) (id : Uuid) (test : Approval → Bool) (executed : Bool) :
    (D.mark id test executed).approvals.map Approval.id = D.approvals.map Approval.id :=
  ids_map fun b _ => by split <;> rfl

theorem put_put {a b : Approval} (h : b.id = a.id) : (D.put a).put b = D.put b := by
  have rows : (D.approvals.map (overwrite a)).map (overwrite b) = D.approvals.map (overwrite b) := by
    rw [List.map_map]
    exact List.map_congr_left fun r _ => overwrite_overwrite h r
  simp only [put, rows]

theorem mem_put {a b : Approval} (h : b ∈ (D.put a).approvals) :
    b = a ∨ b ∈ D.approvals ∧ b.id ≠ a.id := by
  obtain ⟨c, hc, rfl⟩ := List.mem_map.mp h
  by_cases hid : c.id = a.id
  · exact .inl (overwrite_of_eq hid)
  · rw [overwrite_of_ne hid]
    exact .inr ⟨hc, hid⟩

theorem mem_put_of_ne {a b : Approval} (h : b ∈ D.approvals) (hid : b.id ≠ a.id) :
    b ∈ (D.put a).approvals :=
  List.mem_map.mpr ⟨b, h, overwrite_of_ne hid⟩

theorem IsApproved.mark {id : Uuid} (h : D.IsApproved id) (id' : Uuid) (test : Approval → Bool)
    (executed : Bool) : (D.mark id' test executed).IsApproved id := by
  intro a ha hid
  obtain ⟨b, hb, rfl⟩ := List.mem_map.mp ha
  split at hid
  · rw [if_pos ‹_›]
    exact h b hb hid
  · rw [if_neg ‹_›]
    exact h b hb hid

theorem Takes.ids {ds : List Proceeding} (h : D.Takes ds E) :
    E.approvals.map Approval.id = D.approvals.map Approval.id := by
  induction h with
  | nil D => rfl
  | cons _ _ ih => exact ih.trans (put_ids _ _)

theorem Takes.processes {ds : List Proceeding} (h : D.Takes ds E) : E.processes = D.processes := by
  induction h with
  | nil D => rfl
  | cons _ _ ih => exact ih

theorem Takes.turns {ds : List Proceeding} (h : D.Takes ds E) : Relation.ReflTransGen Turn D E := by
  induction h with
  | nil D => exact .refl
  | cons hadmits _ ih => exact .head (.act hadmits) ih

end Docket

/-! ## What was seen of an approval -/

/-- An approval as it was loaded: its version is not ahead of the one on file, and unless the approval
is approved, its row is on file as long as the version is the same. -/
def Approval.SeenIn (a : Approval) (D : Docket) : Prop :=
  ∃ b ∈ D.approvals, b.id = a.id ∧ a.version ≤ b.version
    ∧ (a.version = b.version → a.status ≠ .approved → a = b)

namespace Approval.SeenIn
variable {a : Approval} {D E : Docket}

theorem of_mem (h : a ∈ D.approvals) : a.SeenIn D := ⟨a, h, rfl, Int.le_refl _, fun _ _ => rfl⟩

/-- Where the version is still the one that was loaded, so is the row. -/
theorem there (h : a.SeenIn D) (hdistinct : (D.approvals.map Approval.id).Nodup)
    (hundecided : a.status ≠ .approved) {b : Approval} (hb : b ∈ D.approvals) (hid : b.id = a.id)
    (hversion : b.version = a.version) : a ∈ D.approvals := by
  obtain ⟨c, hc, hcid, -, hsame⟩ := h
  obtain rfl : b = c := List.inj_on_of_nodup_map hdistinct hb hc (hid.trans hcid.symm)
  rw [hsame hversion.symm hundecided]
  exact hb

/-- An action leaves a row behind that nobody has seen yet. -/
theorem act (h : a.SeenIn D) (hdistinct : (D.approvals.map Approval.id).Nodup) {d : Proceeding}
    (hadmits : D.Admits d) : a.SeenIn (D.act d) := by
  obtain ⟨b, hb, hid, hle, hsame⟩ := h
  have hleft := hadmits.proceeds.id
  by_cases hd : b.id = d.left.id
  · obtain rfl : b = d.seen :=
      List.inj_on_of_nodup_map hdistinct hb hadmits.there (hd.trans hleft)
    have hversion := hadmits.proceeds.version
    exact ⟨d.left, mem_overwrite hb hd, hleft.trans hid, by omega, fun h _ => by omega⟩
  · exact ⟨b, Docket.mem_put_of_ne hb hd, hid, hle, hsame⟩

theorem takes {ds : List Proceeding} (h : a.SeenIn D) (hdistinct : (D.approvals.map Approval.id).Nodup)
    (htakes : D.Takes ds E) : a.SeenIn E := by
  induction htakes with
  | nil D => exact h
  | cons hadmits _ ih =>
    exact ih (h.act hdistinct hadmits) ((Docket.put_ids _ _).symm ▸ hdistinct)

theorem marks (h : a.SeenIn D) (hmarks : D.Marks E) : a.SeenIn E := by
  obtain ⟨b, hb, hid, hle, hsame⟩ := h
  cases hmarks with
  | @mark id happroved test executed =>
    refine ⟨_, List.mem_map_of_mem hb, ?_⟩
    by_cases hmarked : (decide (b.id = id) && test b) = true
    · rw [if_pos hmarked]
      refine ⟨hid, hle, fun hversion hundecided => ?_⟩
      have hstatus := happroved b hb (of_decide_eq_true (Bool.and_eq_true_iff.mp hmarked).1)
      exact absurd (hsame hversion hundecided ▸ hstatus) hundecided
    · rw [if_neg hmarked]
      exact ⟨hid, hle, hsame⟩

end Approval.SeenIn

/-! ## Worlds with their dockets -/

/-- The docket is saved, and the identifiers of approvals to come are free. -/
structure World.Orderly (w : World) : Prop where
  saved : w.saved.docket = w.tables.docket
  given : Numbered .approval (w.nextNumber .approval) (w.tables.docket.approvals.map Approval.id)

/-- The docket went on by steps of a kind and is saved again, and no more rivals are to come. -/
structure World.Kept (kind : Docket → Docket → Prop) (w v : World) : Prop where
  orderly : v.Orderly
  rivals : v.rivalWrites ≤ w.rivalWrites
  steps : Relation.ReflTransGen kind w.tables.docket v.tables.docket

def Keeping (kind : Docket → Docket → Prop) (w v : World) : Prop := w.Orderly → w.Kept kind v

namespace World
variable {kind kind' : Docket → Docket → Prop} {w v u : World}

theorem Orderly.kept (hw : w.Orderly) : w.Kept kind w := ⟨hw, Nat.le_refl _, .refl⟩

theorem Kept.trans (h : w.Kept kind v) (h' : v.Kept kind u) : w.Kept kind u :=
  ⟨h'.orderly, Nat.le_trans h'.rivals h.rivals, h.steps.trans h'.steps⟩

theorem Kept.mono (h : w.Kept kind v) (hkind : ∀ D E, kind D E → kind' D E) : w.Kept kind' v :=
  ⟨h.orderly, h.rivals, Relation.ReflTransGen.mono hkind _ _ h.steps⟩

theorem Kept.calm (h : w.Kept kind v) (hcalm : w.rivalWrites = 0) : v.rivalWrites = 0 :=
  Nat.le_zero.mp (hcalm ▸ h.rivals)

/-- Only the docket, the numbers of approvals and the rivals to come matter. -/
theorem Orderly.kept_of_docket (hw : w.Orderly) (hsaved : v.saved.docket = w.saved.docket)
    (htables : v.tables.docket = w.tables.docket)
    (hnumbers : w.nextNumber .approval ≤ v.nextNumber .approval)
    (hrivals : v.rivalWrites ≤ w.rivalWrites) : w.Kept kind v where
  orderly := ⟨by rw [hsaved, htables, hw.saved], htables ▸ hw.given.mono hnumbers⟩
  rivals := hrivals
  steps := htables ▸ .refl

theorem Orderly.committed (hw : w.Orderly) : w.Kept kind w.committed :=
  ⟨⟨rfl, hw.given⟩, Nat.le_refl _, .refl⟩

theorem Orderly.rolledBack (hw : w.Orderly) : w.Kept kind w.rolledBack := by
  have same : w.rolledBack.tables.docket = w.tables.docket := hw.saved
  exact hw.kept_of_docket rfl same (Nat.le_refl _) (Nat.le_refl _)

/-- An operation on approvals that breaks off before anything is saved is undone. -/
theorem Orderly.undone (hw : w.Orderly) (h : Filing w v) : w.Kept kind v.rolledBack := by
  have hsaved : v.rolledBack.saved.docket = w.saved.docket := congrArg Tables.docket h.saved
  have htables : v.rolledBack.tables.docket = w.tables.docket := hsaved.trans hw.saved
  exact hw.kept_of_docket hsaved htables (h.numbers .approval) h.rivals

/-- What an operation on approvals wrote is saved. -/
theorem Orderly.written (hw : w.Orderly) (h : Filing w v)
    (hids : v.tables.docket.approvals.map Approval.id = w.tables.docket.approvals.map Approval.id)
    (hstep : kind w.tables.docket v.tables.docket) : w.Kept kind v.committed where
  orderly := ⟨rfl, hids ▸ hw.given.mono (h.numbers .approval)⟩
  rivals := h.rivals
  steps := .single hstep

end World

section Instances
variable {kind : Docket → Docket → Prop}

instance : IsPreorder World (Keeping kind) where
  refl _ hw := hw.kept
  trans _ _ _ h h' hw := (h hw).trans (h' (h hw).orderly)

instance : Undoes World.rolledBack (Keeping kind) where
  undone _ hw := hw.rolledBack

instance : Lenient (Keeping kind) where
  numbered w t hw :=
    hw.kept_of_docket rfl rfl (w.nextNumber_le_useNumber t .approval) (Nat.le_refl _)
  unstored _ _ h _ hw :=
    hw.kept_of_docket (by rw [h.saved]) (by rw [h.tables])
      (Nat.le_of_eq (World.nextNumber_congr h.numbers _).symm) h.rivals

/-- Any other table may be written to. -/
theorem indifferent_of_docket {ρ : Type} [Stored ρ]
    (h : ∀ (rows : List ρ) (t : Tables), (Stored.setRows rows t).docket = t.docket) :
    Indifferent (Keeping kind) ρ :=
  ⟨fun rows w hw => hw.kept_of_docket rfl (h rows w.tables) (Nat.le_refl _) (Nat.le_refl _)⟩

instance : Indifferent (Keeping kind) StageChange := indifferent_of_docket fun _ _ => rfl
instance : Indifferent (Keeping kind) StoredBlueprint := indifferent_of_docket fun _ _ => rfl
instance : Indifferent (Keeping kind) Enrollment := indifferent_of_docket fun _ _ => rfl
instance : Indifferent (Keeping kind) Job := indifferent_of_docket fun _ _ => rfl
instance : Indifferent (Keeping kind) Run := indifferent_of_docket fun _ _ => rfl

instance : Timeless (Keeping kind) where
  adjusts _ _ _ _ _ _ hw := hw.kept_of_docket rfl rfl (Nat.le_refl _) (Nat.le_refl _)

theorem keeping_committed (w : World) : Keeping kind w w.committed := fun hw => hw.committed

instance : Tolerant (Keeping kind) where
  records := indifferent_of_docket fun _ _ => rfl
  children := indifferent_of_docket fun _ _ => rfl
  cooldowns := indifferent_of_docket fun _ _ => rfl
  rules := indifferent_of_docket fun _ _ => rfl
  messages := indifferent_of_docket fun _ _ => rfl
  cadences := indifferent_of_docket fun _ _ => rfl
  workflows := indifferent_of_docket fun _ _ => rfl
  outside _ _ h hw :=
    hw.kept_of_docket (by rw [h.saved]) (by rw [h.tables])
      (Nat.le_of_eq (World.nextNumber_congr h.numbers _).symm) h.rivals
  amongst _ _ _ h hw := by
    have kept := h ⟨hw.saved, hw.given⟩
    exact ⟨⟨kept.orderly.saved, kept.orderly.given⟩, Nat.zero_le _, kept.steps⟩
  commits := keeping_committed
  undone _ hw := hw.rolledBack
  opens _ :=
    .bind (.looks .ambient) fun _ => .bind (.of_keeps (incidental_insertIf _ _)) fun _ =>
      .bind (.modify keeping_committed) fun _ => .pure _
  savesRun w id change _ := by
    have written : Keeping kind w (w.setRows (Run.changeRow id change w.tables.runs)) :=
      Indifferent.setRows _ w
    exact trans_of (Keeping kind) written (keeping_committed _)
  enrolls cadence record by_ := .of_keeps (incidental_enroll cadence record by_)
  unenrolls record cadence reason actor :=
    .of_keeps (incidental_unenroll record cadence reason actor)

end Instances

end RecordFlow
