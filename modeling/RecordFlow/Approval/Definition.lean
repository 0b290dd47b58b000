import RecordFlow.Action.Decode
import RecordFlow.Action.Encode
import RecordFlow.Value.Shape
import RecordFlow.Workflow.Definition

/-! # Approval process definitions

An approval process is a sequence of steps, each with its approvers, and the actions that follow
an approval or a rejection.
-/
namespace RecordFlow
open Schema

inductive ApproverKind where
  | user
  | role
  | manager
  | recordOwner
  | assignmentRule
  deriving DecidableEq, Inhabited

namespace ApproverKind

def table : List (String × ApproverKind) := [
  ("user", .user), ("role", .role), ("manager", .manager), ("record_owner", .recordOwner),
  ("assignment_rule", .assignmentRule)]

def name (k : ApproverKind) : String := nameIn table k

def needsValue : ApproverKind → Bool
  | .user | .role | .assignmentRule => true
  | .manager | .recordOwner => false

end ApproverKind

structure ApprovalStep where
  kind : ApproverKind
  value : Option String
  name : Option String
  requireComment : Bool
  timeoutHours : Option Int
  deriving Inhabited

namespace ApprovalStep

def decode : Decoder ApprovalStep := object fun f =>
  let step := ApprovalStep.mk
    <$> required f "type" (oneOf ApproverKind.table)
    <*> optional f "value" none (nullable string)
    <*> optional f "name" none (nullable string)
    <*> optional f "require_comment" false bool
    <*> optional f "timeout_hours" none (nullable (intFrom 1))
  step.andThen fun s =>
    let lacksValue := s.kind.needsValue && !isGiven s.value
    obey s (if lacksValue then some (.approverValue s.kind.name) else none)

def encode (s : ApprovalStep) : Value := .obj [
  ("type", .str s.kind.name),
  ("value", .ofOption s.value),
  ("name", .ofOption s.name),
  ("require_comment", .bool s.requireComment),
  ("timeout_hours", .opt .int s.timeoutHours)]

end ApprovalStep

structure ProcessDraft where
  name : String
  module : Option String
  isEnabled : Bool
  steps : List ApprovalStep
  onApprove : List Action
  onReject : List Action
  deriving Inhabited

namespace ProcessDraft

def decode : Decoder ProcessDraft := object fun f =>
  let raw := (fun name module isEnabled steps approve reject =>
      ((approve : List Fields), (reject : List Fields),
        ProcessDraft.mk name module isEnabled steps [] []))
    <$> required f "name" nonEmpty
    <*> optional f "module" none (nullable string)
    <*> optional f "is_enabled" true bool
    <*> required f "steps" (nonEmptyListOf ApprovalStep.decode)
    <*> optional f "on_approve_actions" [] (listOf dict)
    <*> optional f "on_reject_actions" [] (listOf dict)
  raw.andThen fun (approve, reject, draft) =>
    (decodeActions (.list (approve.map .obj))).andThen fun onApprove =>
      (decodeActions (.list (reject.map .obj))).map fun onReject =>
        { draft with onApprove := onApprove, onReject := onReject }

def encode (d : ProcessDraft) : Value := .obj [
  ("name", .str d.name),
  ("module", .ofOption d.module),
  ("is_enabled", .bool d.isEnabled),
  ("steps", .list (d.steps.map ApprovalStep.encode)),
  ("on_approve_actions", encodeActions d.onApprove),
  ("on_reject_actions", encodeActions d.onReject)]

end ProcessDraft

def storedApprovalSteps (v : Value) : Checked (List ApprovalStep) :=
  listOf ApprovalStep.decode (v.orElse (.list []))

inductive Verdict where
  | approve
  | reject
  | requestChanges
  | cancel
  deriving DecidableEq, Inhabited

namespace Verdict

def table : List (String × Verdict) := [
  ("approve", .approve), ("reject", .reject), ("request_changes", .requestChanges),
  ("cancel", .cancel)]

def name (v : Verdict) : String := nameIn table v

end Verdict

structure ApprovalRequest where
  verdict : Verdict
  actorId : String
  actorRole : Option String
  comment : Option String
  deriving Inhabited

namespace ApprovalRequest

def decode : Decoder ApprovalRequest := object fun f => ApprovalRequest.mk
  <$> required f "action" (oneOf Verdict.table)
  <*> required f "actor_id" nonEmpty
  <*> optional f "actor_role" none (nullable string)
  <*> optional f "comment" none (nullable string)

def encode (r : ApprovalRequest) : Value := .obj [
  ("action", .str r.verdict.name),
  ("actor_id", .str r.actorId),
  ("actor_role", .ofOption r.actorRole),
  ("comment", .ofOption r.comment)]

end ApprovalRequest

end RecordFlow

/-! ## Stored approvals

An approval stands at a step of its process; the approvers of each step are kept from the moment
the step was opened. Its version counts the writes of its actors.
-/
namespace RecordFlow
open Calendar

structure ApprovalProcess where
  id : Uuid
  name : String
  module : Option String
  isEnabled : Bool
  steps : Value
  onApprove : Value
  onReject : Value
  deriving Inhabited

def ApprovalProcess.encode (p : ApprovalProcess) : Value := .present [
  ("id", .uuid p.id),
  ("name", .str p.name),
  ("module", .ofOption p.module),
  ("is_enabled", .bool p.isEnabled),
  ("steps_json", p.steps),
  ("on_approve_actions", p.onApprove),
  ("on_reject_actions", p.onReject)]

/-- The status of an approval; one that only a hand can have written is kept by its name. -/
inductive ApprovalStatus where
  | pending
  | approved
  | rejected
  | changesRequested
  | cancelled
  | expired
  | other (name : String)
  deriving DecidableEq, Inhabited

namespace ApprovalStatus

def table : List (String × ApprovalStatus) := [
  ("pending", .pending), ("approved", .approved), ("rejected", .rejected),
  ("changes_requested", .changesRequested), ("cancelled", .cancelled), ("expired", .expired)]

def name : ApprovalStatus → String
  | .other name => name
  | s => Schema.nameIn table s

def ofName (name : String) : ApprovalStatus := (table.lookup name).getD (.other name)

def isOther : ApprovalStatus → Bool
  | .other _ => true
  | _ => false

end ApprovalStatus

structure Approval where
  id : Uuid
  process : Uuid
  record : Uuid
  status : ApprovalStatus
  step : Int
  context : Value
  approvers : Value
  requestedBy : Option String
  resolvedBy : Option String
  resolvedAt : Option Instant
  expiresAt : Option Instant
  executed : Bool
  version : Int
  deriving Inhabited

namespace Approval

/-- An approval with its times on a clock so far ahead of the universal one. -/
def encodeOn (offset : Int) (a : Approval) : Value := .present [
  ("id", .uuid a.id),
  ("process_id", .uuid a.process),
  ("record_id", .uuid a.record),
  ("status", .str a.status.name),
  ("current_step", .int a.step),
  ("context_json", a.context),
  ("resolved_approvers", a.approvers),
  ("requested_by", .ofOption a.requestedBy),
  ("resolved_by", .ofOption a.resolvedBy),
  ("resolved_at", .opt (fun t => .moment ⟨t, offset⟩) a.resolvedAt),
  ("expires_at", .opt (fun t => .moment ⟨t, offset⟩) a.expiresAt),
  ("transition_executed", .bool a.executed),
  ("row_version", .int a.version)]

def encode (a : Approval) : Value := a.encodeOn 0

def state (a : Approval) : Fields := [
  ("status", .str a.status.name),
  ("current_step", .int a.step)]

/-- How an approver by role is kept. -/
def roleMark (role : String) : String := "role:" ++ role

def currentApprovers (a : Approval) : Except ShapeFault Value := do
  return (← a.approvers.lookable).getD (toString a.step)

def isApprover (a : Approval) (actor : String) (role : Option String) : Except ShapeFault Bool := do
  let approvers ← a.currentApprovers
  if ← approvers.names actor then return true
  match role with
  | some r => if r.isEmpty then return false else approvers.names (roleMark r)
  | none => return false

def withApprovers (a : Approval) (approvers : List String) : Except ShapeFault Approval := do
  let kept ← a.approvers.mapping
  return { a with approvers := .obj (kept.put (toString a.step) (.strings approvers)) }

def resolve (a : Approval) (status : ApprovalStatus) (actor : Option String) (now : Instant) :
    Approval :=
  { a with status := status, resolvedBy := actor, resolvedAt := some now }

end Approval

structure ApprovalEntry where
  id : Uuid
  approval : Uuid
  step : Int
  actor : Option String
  action : String
  comment : Option String
  deriving DecidableEq, Inhabited

def ApprovalEntry.encode (e : ApprovalEntry) : Value := .present [
  ("id", .uuid e.id),
  ("approval_id", .uuid e.approval),
  ("step_index", .int e.step),
  ("actor_id", .ofOption e.actor),
  ("action", .str e.action),
  ("comment", .ofOption e.comment)]

end RecordFlow
