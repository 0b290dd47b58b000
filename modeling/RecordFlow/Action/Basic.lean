import RecordFlow.Calendar.Date
import RecordFlow.Condition.Basic
import RecordFlow.Schema.Issue
import RecordFlow.Uuid

/-! # Actions

What a workflow can do to a record or because of it. An action has an identifier and may have a
condition of its own, without which it is passed over.
-/
namespace RecordFlow

inductive Strategy where
  | roundRobin
  | leastLoaded
  | territory
  | fixed
  deriving DecidableEq, Inhabited

namespace Strategy

def table : List (String × Strategy) := [
  ("round_robin", .roundRobin), ("least_loaded", .leastLoaded), ("territory", .territory),
  ("fixed", .fixed)]

def name (s : Strategy) : String := Schema.nameIn table s

def ofName? (name : String) : Option Strategy := table.lookup name

end Strategy

inductive Priority where
  | low
  | normal
  | high
  | urgent
  deriving DecidableEq, Inhabited

namespace Priority

def table : List (String × Priority) := [
  ("low", .low), ("normal", .normal), ("high", .high), ("urgent", .urgent)]

def name (p : Priority) : String := Schema.nameIn table p

end Priority

inductive ActivityKind where
  | task
  | call
  | meeting
  | email
  deriving DecidableEq, Inhabited

namespace ActivityKind

def table : List (String × ActivityKind) := [
  ("task", .task), ("call", .call), ("meeting", .meeting), ("email", .email)]

def name (k : ActivityKind) : String := Schema.nameIn table k

end ActivityKind

inductive CallDirection where
  | outbound
  | inbound
  deriving DecidableEq, Inhabited

namespace CallDirection

def table : List (String × CallDirection) := [("outbound", .outbound), ("inbound", .inbound)]

def name (d : CallDirection) : String := Schema.nameIn table d

end CallDirection

inductive MeetingKind where
  | inPerson
  | video
  | phone
  deriving DecidableEq, Inhabited

namespace MeetingKind

def table : List (String × MeetingKind) := [
  ("in_person", .inPerson), ("video", .video), ("phone", .phone)]

def name (k : MeetingKind) : String := Schema.nameIn table k

end MeetingKind

inductive HttpMethod where
  | post
  | put
  | patch
  deriving DecidableEq, Inhabited

namespace HttpMethod

def table : List (String × HttpMethod) := [("POST", .post), ("PUT", .put), ("PATCH", .patch)]

def name (m : HttpMethod) : String := Schema.nameIn table m

end HttpMethod

structure TaskDraft where
  title : String
  description : Option String
  dueInDays : Int
  priority : Priority
  assignedTo : String
  deriving Inhabited

structure ActivityDraft where
  kind : ActivityKind
  title : String
  description : Option String
  dueInDays : Option Int
  dueInHours : Option Int
  priority : Priority
  assignedTo : String
  call : Option CallDirection
  meeting : Option MeetingKind
  location : Option String
  attendees : List String
  deriving Inhabited

structure Notice where
  recipients : List String
  title : String
  body : Option String
  href : Option String
  deriving Inhabited

structure EnrollmentDraft where
  isExplicit : Bool
  plan : Option String
  effective : Option Calendar.Date
  additional : Fields
  deriving Inhabited

structure EmailDraft where
  template : Option String
  subject : Option String
  body : Option String
  recipient : Option String
  deriving Inhabited

structure SmsDraft where
  template : Option String
  body : Option String
  recipient : Option String
  deriving Inhabited

structure Delay where
  seconds : Int
  minutes : Int
  hours : Int
  days : Int
  isRelative : Bool
  field : Option String
  deriving Inhabited

def Delay.totalSeconds (d : Delay) : Int :=
  d.seconds + d.minutes * 60 + d.hours * 3600 + d.days * 86400

structure Webhook where
  url : String
  method : HttpMethod
  headers : List (String × String)
  includeRecord : Bool
  template : Option String
  retries : Bool
  deriving Inhabited

inductive Operation where
  | updateFields (fields : Fields)
  | assignOwner (rule : Option Uuid) (strategy : Option Strategy) (user : Option String)
  | createTask (draft : TaskDraft)
  | createActivity (draft : ActivityDraft)
  | addNote (body : String) (isPinned : Bool)
  | notify (notice : Notice)
  | moveStage (stage : String)
  | startCadence (cadence : Uuid)
  | stopCadence (cadence : Option Uuid)
  | draftEnrollment (draft : EnrollmentDraft)
  | sendEmail (draft : EmailDraft)
  | sendSms (draft : SmsDraft)
  | delayWait (delay : Delay)
  | postWebhook (webhook : Webhook)
  deriving Inhabited

def Operation.kind : Operation → String
  | .updateFields _ => "update_fields"
  | .assignOwner _ _ _ => "assign_owner"
  | .createTask _ => "create_task"
  | .createActivity _ => "create_activity"
  | .addNote _ _ => "add_note"
  | .notify _ => "notify"
  | .moveStage _ => "move_stage"
  | .startCadence _ => "start_cadence"
  | .stopCadence _ => "stop_cadence"
  | .draftEnrollment _ => "create_enrollment_draft"
  | .sendEmail _ => "send_email"
  | .sendSms _ => "send_sms"
  | .delayWait _ => "delay_wait"
  | .postWebhook _ => "post_webhook"

structure Action where
  id : String
  condition : Option Condition
  operation : Operation
  deriving Inhabited

def Action.kind (a : Action) : String := a.operation.kind

def defaultId : String := "auto"

end RecordFlow
