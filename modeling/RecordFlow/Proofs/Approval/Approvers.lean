import RecordFlow.Proofs.Approval.Filing
import RecordFlow.Proofs.Schema.Drafts

/-! # Who may decide on a step

Persons and roles are kept in one list, roles under a mark. Somebody is an approver of a step that
was opened if and only if the step is meant for them, as long as nobody bears a name that reads like
a marked role.
-/
namespace RecordFlow
open RecordFlow.Flow

namespace Approval

theorem roleMark_inj {role role' : String} : roleMark role = roleMark role' ↔ role = role' := by
  rw [roleMark, roleMark, String.append_right_inj]

/-- A name under which a role could be kept. -/
def IsMarked (name : String) : Prop := ∃ role, name = roleMark role

end Approval

theorem Value.names_strings (names : List String) (s : String) :
    (Value.strings names).names s = .ok (decide (s ∈ names)) := by
  cases names with
  | nil => rfl
  | cons first rest =>
    refine congrArg Except.ok ?_
    rw [Bool.eq_iff_iff, List.any_eq_true, decide_eq_true_iff]
    simp [text?, eq_comm]

namespace ApprovalStep
variable {s : ApprovalStep} {owner role : Option String} {actor : String} {w : World}

def IsNamed (s : ApprovalStep) : Prop := s.kind.needsValue = true → ∃ name, s.value = some name

theorem isNamed_of_decode {v : Value} (h : decode v = .valid s) : s.IsNamed := fun hneeds => by
  cases v with
  | obj fields =>
    obtain ⟨-, hrule⟩ := Schema.andThen_obey_eq_valid.mp h
    rw [hneeds, Bool.true_and] at hrule
    cases hvalue : s.value with
    | some name => exact ⟨name, rfl⟩
    | none => rw [hvalue] at hrule; cases hrule
  | _ => cases h

theorem isNamed_of_storedApprovalSteps {steps : List ApprovalStep} {stored : Value}
    (h : storedApprovalSteps stored = .valid steps) : ∀ s ∈ steps, s.IsNamed := fun s hs =>
  isNamed_of_decode (Schema.decode_of_listOf (rereads_decode.listOf _ _ h) s hs)

def approversOf (s : ApprovalStep) (owner : Option String) : List String :=
  match s.kind with
  | .user => [s.value.getD "None"]
  | .role => [Approval.roleMark (s.value.getD "None")]
  | .recordOwner | .assignmentRule => owner.toList
  | .manager => []

/-- The owner that a step asks for: that of the record, or the one that a rule names for it. -/
def Finds (s : ApprovalStep) (record : Record) (w : World) (owner : Option String) (v : World) :
    Prop :=
  match s.kind with
  | .recordOwner => owner = record.ownerId.text?.filter (!·.isEmpty) ∧ v = w
  | .assignmentRule => ∃ rule d, Uuid.read (s.value.getD "None") = .ok rule
      ∧ resolveAssignment rule record true w = .ok d v ∧ owner = d.owner.filter (!·.isEmpty)
  | .user | .role | .manager => v = w

def Admits (s : ApprovalStep) (owner : Option String) (actor : String) (role : Option String) :
    Prop :=
  match s.kind with
  | .user => s.value = some actor
  | .role => s.value = role
  | .recordOwner | .assignmentRule => owner = some actor
  | .manager => False

/-- Nobody whose name matters on a step bears one under which a role could be kept. -/
def TellsApart (s : ApprovalStep) (owner : Option String) (actor : String) : Prop :=
  match s.kind with
  | .user => ∀ name ∈ s.value, ¬ Approval.IsMarked name
  | .role => ¬ Approval.IsMarked actor
  | .recordOwner | .assignmentRule => ∀ name ∈ owner, ¬ Approval.IsMarked name
  | .manager => True

theorem approversFor_yields (s : ApprovalStep) (record : Record) (w : World) :
    Yields (s.approversFor record) w fun approvers v =>
      ∃ owner, s.Finds record w owner v ∧ approvers = s.approversOf owner := by
  unfold approversFor Finds approversOf
  cases s.kind with
  | user => exact .pure ⟨none, rfl, rfl⟩
  | role => exact .pure ⟨none, rfl, rfl⟩
  | manager => exact .pure ⟨none, rfl, rfl⟩
  | recordOwner => exact .pure ⟨_, ⟨rfl, rfl⟩, rfl⟩
  | assignmentRule =>
    dsimp only
    cases hread : Uuid.read (s.value.getD "None") with
    | error cause => exact .throw
    | ok rule =>
      have resolved : Yields (resolveAssignment rule record true) w fun d v =>
          resolveAssignment rule record true w = .ok d v := .of_ok fun _ _ h => h
      refine .step (a := rule) rfl (resolved.bind fun d v hd => .pure ?_)
      exact ⟨_, ⟨rule, d, rfl, hd, rfl⟩, rfl⟩

/-- A person or a role is among the approvers that are kept if and only if the step is meant for
them. -/
theorem mem_approversOf_iff (hnamed : s.IsNamed) (happart : s.TellsApart owner actor) :
    actor ∈ s.approversOf owner ∨ (∃ r, role = some r ∧ Approval.roleMark r ∈ s.approversOf owner)
      ↔ s.Admits owner actor role := by
  unfold IsNamed at hnamed
  unfold TellsApart at happart
  unfold approversOf Admits
  cases hkind : s.kind with
  | user =>
    rw [hkind] at hnamed happart
    obtain ⟨name, hname⟩ := hnamed rfl
    have unmarked (r : String) : Approval.roleMark r ≠ name := fun h =>
      happart name hname ⟨r, h.symm⟩
    simp [hname, unmarked, eq_comm]
  | role =>
    rw [hkind] at hnamed happart
    obtain ⟨name, hname⟩ := hnamed rfl
    have unmarked : actor ≠ Approval.roleMark name := fun h => happart ⟨name, h⟩
    simp [hname, unmarked, Approval.roleMark_inj, eq_comm]
  | manager => simp
  | _ =>
    rw [hkind] at happart
    have unmarked (r : String) : owner ≠ some (Approval.roleMark r) := fun h =>
      happart _ h ⟨r, rfl⟩
    simp [unmarked]

end ApprovalStep

namespace Approval
variable {a b : Approval} {approvers : List String}

theorem isApprover_withApprovers (h : a.withApprovers approvers = .ok b) (actor : String)
    {role : Option String} (hrole : role ≠ some "") :
    b.isApprover actor role
      = .ok (decide (actor ∈ approvers ∨ ∃ r, role = some r ∧ roleMark r ∈ approvers)) := by
  unfold withApprovers at h
  cases hkept : a.approvers.mapping with
  | error cause => rw [hkept] at h; cases h
  | ok kept =>
    rw [hkept] at h
    obtain rfl := Except.ok.inj h
    have current : currentApprovers { a with
        approvers := .obj (kept.put (toString a.step) (.strings approvers)) }
        = .ok (.strings approvers) :=
      congrArg (fun v : Option Value => Except.ok (v.getD .null)) (Fields.get?_put_self _ _ _)
    simp only [isApprover, current, bind, Except.bind, pure, Except.pure, Value.names_strings]
    by_cases hactor : actor ∈ approvers
    · simp only [hactor, true_or, decide_true, if_true]
    cases role with
    | none => simp [hactor]
    | some r =>
      have hempty : r.isEmpty = false := by simpa using fun h => hrole (congrArg some h)
      simp [hactor, hempty]

/-- Whoever bears the name under which a role is kept passes for somebody who has the role. -/
theorem isApprover_roleMark (h : a.withApprovers approvers = .ok b) {actor role : String}
    (hrole : role ≠ "") (hactor : actor ∉ approvers) :
    b.isApprover (roleMark role) none = b.isApprover actor (some role) := by
  have hnone : none ≠ some "" := nofun
  have hsome : some role ≠ some "" := fun hempty => hrole (Option.some.inj hempty)
  rw [isApprover_withApprovers h _ hnone, isApprover_withApprovers h _ hsome]
  simp [hactor]

/-- Once a step is open, somebody is an approver if and only if it is meant for them. -/
theorem openStep_admits (a : Approval) {steps : List ApprovalStep} {stored : Value}
    (hsteps : storedApprovalSteps stored = .valid steps) (record : Record) (w : World) :
    Yields (a.openStep steps record) w fun b _ => ∃ s owner v, itemAt? steps a.step = some s
      ∧ s.Finds record w owner v
      ∧ ∀ actor role, role ≠ some "" → s.TellsApart owner actor →
        ∃ answer, b.isApprover actor role = .ok answer
          ∧ (answer = true ↔ s.Admits owner actor role) := by
  unfold openStep
  refine (stepAt_ends steps a.step w).yields.bind fun s v ⟨hv, hs⟩ => ?_
  subst hv
  refine (s.approversFor_yields record v).bind fun approvers u ⟨owner, hfinds, happrovers⟩ => ?_
  refine (shaped_ends _ u).yields.bind fun named _ ⟨_, hwith⟩ => ?_
  refine .after fun t _ => ?_
  refine .after fun expiresAt _ => ?_
  refine .after fun _ _ => ?_
  refine .after fun _ _ => .pure ?_
  refine ⟨s, owner, u, hs, hfinds, fun actor role hrole happart => ?_⟩
  refine ⟨_, isApprover_withApprovers hwith actor hrole, ?_⟩
  have hnamed := ApprovalStep.isNamed_of_storedApprovalSteps hsteps s (mem_of_itemAt? hs)
  rw [decide_eq_true_iff, happrovers]
  exact ApprovalStep.mem_approversOf_iff hnamed happart

end Approval

end RecordFlow
