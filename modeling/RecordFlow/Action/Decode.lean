import RecordFlow.Action.Basic
import RecordFlow.Condition.Parse

/-! # Decoding actions

The type of an action decides which other fields it has.
-/
namespace RecordFlow
open Schema

def isGiven (s : Option String) : Bool := s.any (!·.isEmpty)

namespace Operation

def decodeUpdateFields (f : Fields) : Checked Operation :=
  .updateFields <$> required f "fields" nonEmptyDict

def decodeAssignOwner (f : Fields) : Checked Operation :=
  let rule := optional f "rule_id" none (nullable uuid)
  let strategy := optional f "strategy" none (nullable (oneOf Strategy.table))
  let user := optional f "user_id" none (nullable string)
  Operation.assignOwner <$> rule <*> strategy <*> user

def decodeCreateTask (f : Fields) : Checked Operation :=
  .createTask <$> (TaskDraft.mk
    <$> required f "title" nonEmpty
    <*> optional f "description" none (nullable string)
    <*> optional f "due_in_days" 1 (intFrom 0)
    <*> optional f "priority" .normal (oneOf Priority.table)
    <*> optional f "assigned_to" "owner" string)

def decodeCreateActivity (f : Fields) : Checked Operation :=
  .createActivity <$> (ActivityDraft.mk
    <$> required f "activity_type" (oneOf ActivityKind.table)
    <*> required f "title" nonEmpty
    <*> optional f "description" none (nullable string)
    <*> optional f "due_in_days" none (nullable (intFrom 0))
    <*> optional f "due_in_hours" none (nullable (intFrom 0))
    <*> optional f "priority" .normal (oneOf Priority.table)
    <*> optional f "assigned_to" "owner" string
    <*> optional f "call_type" none (nullable (oneOf CallDirection.table))
    <*> optional f "meeting_type" none (nullable (oneOf MeetingKind.table))
    <*> optional f "meeting_location" none (nullable string)
    <*> optional f "attendees" [] (listOf string))

def decodeAddNote (f : Fields) : Checked Operation :=
  .addNote <$> required f "body" nonEmpty <*> optional f "is_pinned" false bool

def decodeNotify (f : Fields) : Checked Operation :=
  .notify <$> (Notice.mk
    <$> required f "recipients" (nonEmptyListOf string)
    <*> required f "title" nonEmpty
    <*> optional f "body" none (nullable string)
    <*> optional f "href" none (nullable string))

def decodeMoveStage (f : Fields) : Checked Operation := .moveStage <$> required f "stage" nonEmpty

def decodeStartCadence (f : Fields) : Checked Operation :=
  .startCadence <$> required f "cadence_id" uuid

def decodeStopCadence (f : Fields) : Checked Operation :=
  .stopCadence <$> optional f "cadence_id" none (nullable uuid)

def decodeDraftEnrollment (f : Fields) : Checked Operation :=
  .draftEnrollment <$> (EnrollmentDraft.mk
    <$> optional f "explicit" false bool
    <*> optional f "plan_id" none (nullable string)
    <*> optional f "effective_date" none (nullable date)
    <*> optional f "additional_data" [] dict)

def decodeSendEmail (f : Fields) : Checked Operation :=
  .sendEmail <$> (EmailDraft.mk
    <$> optional f "template_id" none (nullable string)
    <*> optional f "subject" none (nullable string)
    <*> optional f "body" none (nullable string)
    <*> optional f "to" none (nullable string))

def decodeSendSms (f : Fields) : Checked Operation :=
  .sendSms <$> (SmsDraft.mk
    <$> optional f "template_id" none (nullable string)
    <*> optional f "body" none (nullable string)
    <*> optional f "to" none (nullable string))

def delayTypes : List (String × Bool) := [("fixed", false), ("relative", true)]

def decodeDelayWait (f : Fields) : Checked Operation :=
  .delayWait <$> (Delay.mk
    <$> optional f "delay_seconds" 0 (intFrom 0)
    <*> optional f "delay_minutes" 0 (intFrom 0)
    <*> optional f "delay_hours" 0 (intFrom 0)
    <*> optional f "delay_days" 0 (intFrom 0)
    <*> optional f "delay_type" false (oneOf delayTypes)
    <*> optional f "delay_field" none (nullable string))

def decodePostWebhook (f : Fields) : Checked Operation :=
  .postWebhook <$> (Webhook.mk
    <$> required f "url" link
    <*> optional f "method" .post (oneOf HttpMethod.table)
    <*> optional f "headers" [] (dictOf string)
    <*> optional f "include_record" true bool
    <*> optional f "body_template" none (nullable string)
    <*> optional f "retry_on_failure" false bool)

def decoders : List (String × (Fields → Checked Operation)) := [
  ("update_fields", decodeUpdateFields),
  ("assign_owner", decodeAssignOwner),
  ("create_task", decodeCreateTask),
  ("create_activity", decodeCreateActivity),
  ("add_note", decodeAddNote),
  ("notify", decodeNotify),
  ("move_stage", decodeMoveStage),
  ("start_cadence", decodeStartCadence),
  ("stop_cadence", decodeStopCadence),
  ("create_enrollment_draft", decodeDraftEnrollment),
  ("send_email", decodeSendEmail),
  ("send_sms", decodeSendSms),
  ("delay_wait", decodeDelayWait),
  ("post_webhook", decodePostWebhook)]

/-- What has to hold between the fields of one action. -/
def broken? : Operation → Option Rule
  | .assignOwner rule _ user => if rule.isSome || isGiven user then none else some .assignTarget
  | .sendEmail d =>
    if isGiven d.template || isGiven d.subject || isGiven d.body then none else some .emailContent
  | .sendSms d => if isGiven d.template || isGiven d.body then none else some .smsContent
  | .delayWait d => if d.isRelative && !isGiven d.field then some .delayField else none
  | _ => none

end Operation

namespace Action

def decodeFields (decodeOperation : Fields → Checked Operation) (f : Fields) : Checked Action :=
  let action := Action.mk
    <$> optional f "id" defaultId string
    <*> optional f "condition" none Condition.parse
    <*> decodeOperation f
  action.andThen fun a => match a.operation.broken? with
    | none => .valid a
    | some rule => .fail (.rule rule)

def decode : Decoder Action
  | .obj f =>
    match Fields.get? f "type" with
    | none => .fail .tagNotFound
    | some (.str kind) =>
      match Operation.decoders.lookup kind with
      | some decodeOperation => (decodeFields decodeOperation f).under (.field kind)
      | none => .fail .tagInvalid
    | some _ => .fail .tagInvalid
  | _ => .fail .attributes

end Action

def decodeActions : Decoder (List Action) := listOf Action.decode

/-- A stored list of actions; anything that does not count as given stands for none. -/
def storedActions (v : Value) : Checked (List Action) := decodeActions (v.orElse (.list []))

end RecordFlow
