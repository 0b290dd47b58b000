import RecordFlow.Approval.Definition
import RecordFlow.Assignment.Resolve
import RecordFlow.Message.Outbox

/-! # Submitting approvals

An approval opens the first step of its process. Opening a step finds its approvers, who are told,
and sets the time at which it expires.
-/
namespace RecordFlow
open RecordFlow.Flow Calendar

namespace ApprovalProcess

def readSteps (p : ApprovalProcess) : Flow (List ApprovalStep) :=
  valid (storedApprovalSteps p.steps)

end ApprovalProcess

def givenText (s : Option String) : List String := (s.filter (!·.isEmpty)).toList

namespace ApprovalStep

/-- The approvers of a step for a record; nobody knows managers. -/
def approversFor (s : ApprovalStep) (record : Record) : Flow (List String) := do
  let value := s.value.getD "None"
  match s.kind with
  | .user => return [value]
  | .role => return [Approval.roleMark value]
  | .recordOwner => return givenText record.ownerId.text?
  | .assignmentRule =>
    let rule ← match Uuid.read value with
      | .ok id => pure id
      | .error cause => throw (.identifier cause)
    return givenText (← resolveAssignment rule record true).owner
  | .manager => return []

def expiry (s : ApprovalStep) (t : Instant) : Except OutOfRange (Option Instant) :=
  match s.timeoutHours with
  | some hours => if hours = 0 then .ok none else (t.addSeconds? (hours * 3600)).map some
  | none => .ok none

def title (s : ApprovalStep) (position : Int) : String :=
  match s.name with
  | some name => if name.isEmpty then s!"step {position + 1}" else name
  | none => s!"step {position + 1}"

end ApprovalStep

namespace Approval

def entity : String := "automation.approval"

def audit (a : Approval) (action : String) (before : Option Fields) (actor : Option String) :
    Flow Unit :=
  note (AuditEntry.actorName (.ofOption actor)) entity a.id.text action (.opt .obj before)
    (.obj (a.state ++ [("record_id", .uuid a.record)]))

def enter (a : Approval) (actor : Option String) (action : String) (comment : Option String) :
    Flow Unit := do
  let _ ← insert (ρ := ApprovalEntry) fun id => ⟨id, a.id, a.step, actor, action, comment⟩

def invitation (a : Approval) (s : ApprovalStep) (record : Record) (approver : String) :
    MessageRequest where
  recipient := .str approver
  subject := .str ("Approval requested: " ++ s.title a.step)
  body := .str
    ("Record " ++ (record.title.orElse (.str record.id.text)).text
      ++ " is waiting for your approval.")
  template := .null
  record := some record.id
  metadata := [("approval_id", .uuid a.id), ("step_index", .int a.step)]

/-- Tells the approvers that are persons. -/
def invite (a : Approval) (s : ApprovalStep) (record : Record) (approvers : List String) :
    Flow Unit := do
  for approver in approvers.filter (!·.startsWith "role:") do
    let _ ← Message.dispatch "in_app" (a.invitation s record approver)

def openStep (a : Approval) (steps : List ApprovalStep) (record : Record) : Flow Approval := do
  let s ← stepAt steps a.step
  let approvers ← s.approversFor record
  let named ← shaped (a.withApprovers approvers)
  let expiresAt ← inTime (s.expiry (← now))
  let opened := { named with expiresAt := expiresAt }
  store opened
  opened.invite s record approvers
  return opened

def submit (process record : Uuid) (requestedBy : Option String) (about : Fields) :
    Flow Approval := do
  let p ← fetch ApprovalProcess process
  if !p.isEnabled then throw (.processDisabled process)
  let r ← Record.fetch record
  let a ← insert (ρ := Approval) fun id => {
    id := id
    process := process
    record := record
    status := .pending
    step := 0
    context := .obj about
    approvers := .obj []
    requestedBy := requestedBy
    resolvedBy := none
    resolvedAt := none
    expiresAt := none
    executed := false
    version := 1 }
  let opened ← a.openStep (← p.readSteps) r
  opened.enter requestedBy "submit" none
  opened.audit "approval.submitted" none requestedBy
  return opened

end Approval

end RecordFlow
