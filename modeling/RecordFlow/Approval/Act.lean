import RecordFlow.Blueprint.Move

/-! # Acting on approvals

An actor works on an approval as it was loaded. An action is entered only if nobody else acted in
between; otherwise it is refused and nothing changes.
-/
namespace RecordFlow
open RecordFlow.Flow Calendar

structure ApprovalResult where
  success : Bool
  approval : Uuid
  status : ApprovalStatus
  isInvalid : Bool
  executed : Bool
  error : Option String
  move : Option MoveResult
  deriving Inhabited

def ApprovalResult.encode (r : ApprovalResult) : Value := .obj [
  ("success", .bool r.success),
  ("approval_id", .uuid r.approval),
  ("new_status", .str r.status.name),
  ("invalid_request", .bool r.isInvalid),
  ("action_executed", .bool r.executed),
  ("error", .ofOption r.error),
  ("transition", .opt MoveResult.encode r.move)]

inductive ActRefusal where
  | status (s : ApprovalStatus)
  | notApprover
  | mayNotCancel
  | noComment
  | notRequester
  | overtaken
  deriving DecidableEq, Inhabited

def ActRefusal.message : ActRefusal → String
  | .status s => "approval is " ++ s.name
  | .notApprover => "actor is not an approver for the current step"
  | .mayNotCancel => "only the requester or a current approver can cancel"
  | .noComment => "a comment is required for this step"
  | .notRequester => "only the requester can resubmit"
  | .overtaken => "approval was modified concurrently"

namespace Approval

/-- Refuses an action. A status that no approval should have cannot be answered. -/
def refuse (a : Approval) (action : String) (cause : ActRefusal) : Flow ApprovalResult := do
  count (.approval action "invalid")
  if a.status.isOther then throw (.invalid [⟨[.field "new_status"], .literal⟩])
  return ⟨false, a.id, a.status, true, false, some cause.message, none⟩

def succeed (a : Approval) (r : ApprovalRequest) (before : Approval) (executed : Bool)
    (move : Option MoveResult) : Flow ApprovalResult := do
  count (.approval r.verdict.name "success")
  a.audit ("approval." ++ r.verdict.name) (some before.state) (some r.actorId)
  return ⟨true, a.id, a.status, false, executed, none, move⟩

/-- Counts the version up, if it still is the one that was loaded. -/
def claim (a : Approval) : Flow (Option Approval) := do
  if ← swap a.id a.version fun row : Approval => row then
    return some { a with version := a.version + 1 }
  else return none

def announceResolved (a : Approval) : Flow Unit :=
  announce "approval.resolved" (.ofOption a.resolvedBy) [
    ("approval_id", .uuid a.id),
    ("record_id", .uuid a.record),
    ("status", .str a.status.name)]

/-- Carries out what follows a decision; tells whether all of it was done. -/
def carryOutActions (a : Approval) (written : Value) (actor : String) : Flow Bool := do
  match ← valid (storedActions written) with
  | [] => return false
  | actions =>
    match ← Record.get? a.record with
    | none => return false
    | some r =>
      let c ← Context.fresh r "approval"
      let run ← Run.start { c with actor := .str actor, source := "approval" } actions true
      return run.status = .completed

def lacksComment (s : ApprovalStep) (r : ApprovalRequest) : Bool :=
  s.requireComment && (r.verdict = .approve || r.verdict = .reject)
    && (Text.strip (r.comment.getD "")).isEmpty

/-- Why an actor may not decide on the current step, if so. Behind the last step nothing needs a
comment. -/
def refusal? (a : Approval) (steps : List ApprovalStep) (r : ApprovalRequest) :
    Flow (Option ActRefusal) := do
  if a.status ≠ .pending then return some (.status a.status)
  if !(← shaped (a.isApprover r.actorId r.actorRole)) then return some .notApprover
  if (steps.length : Int) ≤ a.step then return none
  return if lacksComment (← stepAt steps a.step) r then some .noComment else none

def mayCancel (a : Approval) (r : ApprovalRequest) : Except ShapeFault Bool :=
  if a.requestedBy = some r.actorId then .ok true else a.isApprover r.actorId r.actorRole

def cancellation? (a : Approval) (r : ApprovalRequest) : Except ShapeFault (Option ActRefusal) := do
  if a.status ≠ .pending ∧ a.status ≠ .changesRequested then return some (.status a.status)
  return if ← a.mayCancel r then none else some .mayNotCancel

def cancel (a : Approval) (r : ApprovalRequest) : Flow ApprovalResult := do
  match ← shaped (a.cancellation? r) with
  | some cause => a.refuse r.verdict.name cause
  | none =>
    match ← a.claim with
    | none => a.refuse r.verdict.name .overtaken
    | some claimed =>
      let cancelled := claimed.resolve .cancelled (some r.actorId) (← now)
      store cancelled
      cancelled.enter (some r.actorId) r.verdict.name r.comment
      commit
      cancelled.announceResolved
      cancelled.succeed r a false none

def requestChanges (a claimed : Approval) (r : ApprovalRequest) : Flow ApprovalResult := do
  let asked := { claimed with status := .changesRequested }
  store asked
  commit
  asked.succeed r a false none

def reject (a claimed : Approval) (p : ApprovalProcess) (r : ApprovalRequest) :
    Flow ApprovalResult := do
  let rejected := claimed.resolve .rejected (some r.actorId) (← now)
  store rejected
  commit
  let executed ← rejected.carryOutActions p.onReject r.actorId
  rejected.announceResolved
  rejected.succeed r a executed none

def approveStep (a claimed : Approval) (steps : List ApprovalStep) (r : ApprovalRequest) :
    Flow ApprovalResult := do
  let moved := { claimed with step := claimed.step + 1 }
  let record ← Record.fetch a.record
  let opened ← moved.openStep steps record
  commit
  opened.succeed r a false none

def approveLast (a claimed : Approval) (p : ApprovalProcess) (r : ApprovalRequest) :
    Flow ApprovalResult := do
  let approved := claimed.resolve .approved (some r.actorId) (← now)
  store approved
  commit
  let move ←
    if (← shaped approved.isMove) && (← wiring).transitionsOfApprovals then
      some <$> executeMove a.id (some r.actorId)
    else pure none
  let current ← fetch Approval a.id
  let executed ← current.carryOutActions p.onApprove r.actorId
  current.announceResolved
  current.succeed r a (executed || move.any (·.success)) move

def act (a : Approval) (r : ApprovalRequest) : Flow ApprovalResult := do
  let p ← fetch ApprovalProcess a.process
  let steps ← p.readSteps
  if r.verdict = .cancel then a.cancel r
  else match ← a.refusal? steps r with
    | some cause => a.refuse r.verdict.name cause
    | none =>
      match ← a.claim with
      | none => a.refuse r.verdict.name .overtaken
      | some claimed =>
        claimed.enter (some r.actorId) r.verdict.name r.comment
        match r.verdict with
        | .requestChanges => a.requestChanges claimed r
        | .reject => a.reject claimed p r
        | _ =>
          if claimed.step + 1 < steps.length then a.approveStep claimed steps r
          else a.approveLast claimed p r

def resubmission? (a : Approval) (actor : String) : Option ActRefusal :=
  if a.status ≠ .changesRequested then some (.status a.status)
  else if a.requestedBy.any fun by_ => !by_.isEmpty && by_ != actor then some .notRequester
  else none

def resubmit (a : Approval) (actor : String) (comment : Option String) : Flow ApprovalResult := do
  match a.resubmission? actor with
  | some cause => a.refuse "resubmit" cause
  | none =>
    match ← a.claim with
    | none => a.refuse "resubmit" .overtaken
    | some claimed =>
      let record ← Record.fetch a.record
      let p ← fetch ApprovalProcess a.process
      let steps ← p.readSteps
      let opened ← { claimed with status := .pending }.openStep steps record
      opened.enter (some actor) "resubmit" comment
      commit
      count (.approval "resubmit" "success")
      opened.audit "approval.resubmitted" (some a.state) (some actor)
      return ⟨true, a.id, opened.status, false, false, none, none⟩

/-- Whether the time of an approval is over. A time in a row is read as a universal one. -/
def isExpired (m : Moment) (a : Approval) : Bool :=
  a.expiresAt.any fun e => decide (e ≤ m.universal)

def expireOne (t : Instant) (a : Approval) : Flow (Option Approval) := do
  match ← a.claim with
  | none => return none
  | some claimed =>
    let expired := { claimed with status := .expired, resolvedAt := some t }
    store expired
    expired.enter none "expire" none
    expired.audit "approval.expired" (some a.state) none
    return some expired

def expirable : Flow (List Approval) := do
  return (← all Approval).filter fun a => a.status = .pending && a.expiresAt.isSome

/-- Expires those of the loaded approvals whose time is over, and counts them. -/
def expire (m : Moment) (loaded : List Approval) : Flow Nat := do
  let expired ← (loaded.filter (isExpired m)).filterMapM (expireOne m.wall)
  commit
  for a in expired do
    a.announceResolved
  return expired.length

end Approval

end RecordFlow
