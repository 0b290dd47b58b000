import RecordFlow.Action.Basic
import RecordFlow.Value.Form

/-! # Stored form of actions

Every field is written, null where nothing is set.
-/
namespace RecordFlow

namespace Operation
open Value (opt ofOption)

def encode : Operation → Fields
  | .updateFields fields => [("fields", .obj fields)]
  | .assignOwner rule strategy user => [
      ("rule_id", opt .uuid rule),
      ("strategy", opt (.str ·.name) strategy),
      ("user_id", ofOption user)]
  | .createTask d => [
      ("title", .str d.title),
      ("description", ofOption d.description),
      ("due_in_days", .int d.dueInDays),
      ("priority", .str d.priority.name),
      ("assigned_to", .str d.assignedTo)]
  | .createActivity d => [
      ("activity_type", .str d.kind.name),
      ("title", .str d.title),
      ("description", ofOption d.description),
      ("due_in_days", opt .int d.dueInDays),
      ("due_in_hours", opt .int d.dueInHours),
      ("priority", .str d.priority.name),
      ("assigned_to", .str d.assignedTo),
      ("call_type", opt (.str ·.name) d.call),
      ("meeting_type", opt (.str ·.name) d.meeting),
      ("meeting_location", ofOption d.location),
      ("attendees", .strings d.attendees)]
  | .addNote body isPinned => [("body", .str body), ("is_pinned", .bool isPinned)]
  | .notify n => [
      ("recipients", .strings n.recipients),
      ("title", .str n.title),
      ("body", ofOption n.body),
      ("href", ofOption n.href)]
  | .moveStage stage => [("stage", .str stage)]
  | .startCadence cadence => [("cadence_id", .uuid cadence)]
  | .stopCadence cadence => [("cadence_id", opt .uuid cadence)]
  | .draftEnrollment d => [
      ("explicit", .bool d.isExplicit),
      ("plan_id", ofOption d.plan),
      ("effective_date", opt .date d.effective),
      ("additional_data", .obj d.additional)]
  | .sendEmail d => [
      ("template_id", ofOption d.template),
      ("subject", ofOption d.subject),
      ("body", ofOption d.body),
      ("to", ofOption d.recipient)]
  | .sendSms d => [
      ("template_id", ofOption d.template),
      ("body", ofOption d.body),
      ("to", ofOption d.recipient)]
  | .delayWait d => [
      ("delay_seconds", .int d.seconds),
      ("delay_minutes", .int d.minutes),
      ("delay_hours", .int d.hours),
      ("delay_days", .int d.days),
      ("delay_type", .str (if d.isRelative then "relative" else "fixed")),
      ("delay_field", ofOption d.field)]
  | .postWebhook w => [
      ("url", .str w.url),
      ("method", .str w.method.name),
      ("headers", .obj (w.headers.map fun h => (h.1, .str h.2))),
      ("include_record", .bool w.includeRecord),
      ("body_template", ofOption w.template),
      ("retry_on_failure", .bool w.retries)]

end Operation

def Action.encode (a : Action) : Value :=
  .obj ([("id", .str a.id), ("condition", Condition.encode? a.condition), ("type", .str a.kind)]
    ++ a.operation.encode)

def encodeActions (actions : List Action) : Value := .list (actions.map Action.encode)

end RecordFlow
