import RecordFlow.Action.Effect
import RecordFlow.Message.Outbox
import RecordFlow.Record.Template

/-! # Actions that send messages -/
namespace RecordFlow.Action
open RecordFlow.Flow Scoped

/-- The users that references name; a reference that names nobody is dropped. -/
def resolveUsers (r : Record) : List String → Except BadNumeral (List Value)
  | [] => .ok []
  | reference :: rest => do
    let user ← r.resolveUser (some reference)
    let users ← resolveUsers r rest
    return if user.isFalsy then users else user :: users

def eachOnce : List Value → List Value
  | [] => []
  | v :: rest => v :: (eachOnce rest).filter (!v.same ·)

/-- One message to each recipient; the first that is refused stops the rest. -/
def notifyAll (subject : String) (body href : Option String) (record : Uuid) :
    List Value → Flow (List Uuid)
  | [] => return []
  | recipient :: rest => do
    let metadata := match href with
      | some h => if h.isEmpty then [] else [("href", .str h)]
      | none => []
    let request : MessageRequest :=
      ⟨recipient, .str subject, .ofOption body, .null, some record, metadata⟩
    match ← Message.dispatch "in_app" request with
    | .refused error => throw (.notification recipient.text error)
    | .sent message => return message :: (← notifyAll subject body href record rest)

def notify (n : Notice) : Scoped Effect := do
  let c ← context
  let users ← readable (resolveUsers c.record n.recipients)
  let recipients := eachOnce users
  let title ← readable (Template.render c.record.context n.title)
  let body ← readable (Template.render? c.record.context n.body)
  let output := [("recipients", .list recipients), ("title", .str title)]
  if c.isDry then return .planned output
  if recipients.isEmpty then throw (.misconfigured .noRecipients)
  let messages ← notifyAll title body n.href c.record.id recipients
  let ids := messages.map Uuid.text
  let output := Fields.put "message_ids" (.strings ids) output
  return { Effect.report output with sideEffect := ids.head? }

def recipient (r : Record) (to_ : Option String) (field : String) : Except BadNumeral Value :=
  match to_.any (!·.isEmpty) with
  | true => (r.resolveUser to_).map (·.orElse (.str ""))
  | false => (r.context.fieldValue field).map fun v => .str (if v.isFalsy then "" else v.text)

def sendMessage (kind channel : String) (r : MessageRequest) : Scoped Effect := do
  let output := [
    ("channel", .str channel),
    ("recipient", r.recipient),
    ("template_id", r.template)]
  if (← context).isDry then return .planned output
  if r.recipient.isFalsy then throw (.misconfigured (.noRecipient kind))
  match ← Message.dispatch channel r with
  | .refused error => throw (.dispatch error)
  | .sent message =>
    return .leaving (Fields.put "message_id" (.uuid message) output) message.text

def sendEmail (d : EmailDraft) : Scoped Effect := do
  let r := (← context).record
  let to_ ← readable (recipient r d.recipient "email")
  let subject ← readable (Template.render? r.context d.subject)
  let body ← readable (Template.render? r.context d.body)
  sendMessage "send_email" "email"
    ⟨to_, .ofOption subject, .ofOption body, .ofOption d.template, some r.id, []⟩

def sendSms (d : SmsDraft) : Scoped Effect := do
  let r := (← context).record
  let to_ ← readable (recipient r d.recipient "phone")
  let body ← readable (Template.render? r.context d.body)
  sendMessage "send_sms" "sms" ⟨to_, .null, .ofOption body, .ofOption d.template, some r.id, []⟩

end RecordFlow.Action
