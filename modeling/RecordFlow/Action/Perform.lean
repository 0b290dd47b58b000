import RecordFlow.Action.Children
import RecordFlow.Action.Deferred
import RecordFlow.Action.Messaging
import RecordFlow.Action.Mutation

/-! # Performing actions

An action whose condition does not hold is passed over; any other takes one off the budget. One that
breaks off leaves the tables as they were saved last and gives a failed result; only the want of
budget stops the run.
-/
namespace RecordFlow.Action
open RecordFlow.Flow Scoped

def carryOut (react : Reaction) (a : Action) : Scoped Effect :=
  match a.operation with
  | .updateFields fields => updateFields react fields
  | .assignOwner rule strategy user => assignOwner react rule strategy user
  | .createTask d => createTask d
  | .createActivity d => createActivity d
  | .addNote body isPinned => addNote body isPinned
  | .notify n => notify n
  | .moveStage stage => moveStage react stage
  | .startCadence cadence => startCadence cadence
  | .stopCadence cadence => stopCadence cadence
  | .draftEnrollment d => draftEnrollment d
  | .sendEmail d => sendEmail d
  | .sendSms d => sendSms d
  | .delayWait d => delayWait d
  | .postWebhook w => postWebhook a w

def consume (a : Action) : Scoped Unit := do
  match (← context).budget.consume a.kind with
  | .ok b => changeContext fun c => { c with budget := b }
  | .error l => throw (.limit l)

def attempt (react : Reaction) (a : Action) : Scoped ActionResult := do
  consume a
  match ← orFailure (carryOut react a) with
  | .ok effect => return effect.result a
  | .error cause =>
    rollback
    return .brokenOff a cause

def isPassedOver (a : Action) (c : Context) : Bool :=
  !Condition.holds? c.record.context (c.previous.map Record.context) a.condition

def perform (react : Reaction) (a : Action) : Scoped ActionResult := do
  let result ← if a.isPassedOver (← context) then pure (.passedOver a) else attempt react a
  count (.action a.kind result.status.name)
  return result

end RecordFlow.Action
