import RecordFlow.Store.Access

/-! # The outbox

Messages wait in the outbox for delivery. A channel that is unknown or down takes none.
-/
namespace RecordFlow.Message
open RecordFlow.Flow

def channels : List String := ["in_app", "email", "sms"]

def refusal? (failing : List String) (channel : String) (r : MessageRequest) : Option String :=
  if failing.contains channel then some (channel ++ " provider down")
  else if !channels.contains channel then some ("unsupported channel: " ++ channel)
  else if r.recipient.isFalsy then some "recipient is required"
  else none

def payloadOf (r : MessageRequest) : Fields :=
  Fields.putAll [("template_id", r.template)] r.metadata

/-- The row of a message that is asked for; one without a recipient is refused. -/
def ofRequest (channel : String) (r : MessageRequest) (id : Uuid) : Except CellFault Message := do
  let recipient ← Cell.text r.recipient
  let subject ← Cell.text r.subject
  let body ← Cell.text r.body
  match recipient with
  | none => .error .unfit
  | some recipient => .ok {
      id := id
      channel := channel
      recipient := recipient
      subject := subject
      body := body
      record := r.record
      payload := .obj (payloadOf r)
      status := queued }

def dispatch (channel : String) (r : MessageRequest) : Flow Dispatch := do
  match refusal? (← wiring).failingChannels channel r with
  | some error => return .refused error
  | none =>
    let m ← insertTaken (ofRequest channel r) fun _ _ => true
    return .sent m.id

end RecordFlow.Message
