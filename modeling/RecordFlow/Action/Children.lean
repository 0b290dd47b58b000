import RecordFlow.Action.Effect
import RecordFlow.Action.Timing
import RecordFlow.Record.Store
import RecordFlow.Record.Template

/-! # Actions that add children

Tasks, activities, notes and drafts belong to the record of the run.
-/
namespace RecordFlow
open RecordFlow.Flow Scoped Calendar

namespace Record.ChildDraft

def outline (d : ChildDraft) : Fields :=
  (Fields.putAll d.payload [
    ("title", d.title),
    ("body", d.body),
    ("assigned_to", d.assignedTo),
    ("due_at", .opt .moment d.dueAt),
    ("created_by", d.createdBy)]).filter fun f => !f.2.isNull

end Record.ChildDraft

namespace Action

def addChild (d : Record.ChildDraft) : Scoped Effect := do
  let c ← context
  if c.isDry then return .planned d.outline
  let child ← Record.createChild c.record.id d
  return .leaving (Fields.put "child_id" (.uuid child.id) d.outline) child.id.text

def daysLater (t : Moment) (days hours : Int) : Except OutOfRange Moment :=
  t.addSeconds? (days * 86400 + hours * 3600)

def createTask (d : TaskDraft) : Scoped Effect := do
  let c ← context
  let record := c.record.context
  let title ← readable (Template.render record d.title)
  let body ← readable (Template.render? record d.description)
  let assignedTo ← readable (c.record.resolveUser (some d.assignedTo))
  let due ← inTime (daysLater (← moment) d.dueInDays 0)
  addChild {
    kind := "task"
    title := .str title
    body := .ofOption body
    assignedTo := assignedTo
    dueAt := some due
    payload := [("priority", .str d.priority.name)]
    createdBy := c.actor }

def activityDue (t : Moment) : (days hours : Option Int) → Except OutOfRange (Option Moment)
  | none, none => .ok none
  | days, hours => (daysLater t (days.getD 0) (hours.getD 0)).map some

def createActivity (d : ActivityDraft) : Scoped Effect := do
  let c ← context
  let record := c.record.context
  let due ← inTime (activityDue (← moment) d.dueInDays d.dueInHours)
  let title ← readable (Template.render record d.title)
  let body ← readable (Template.render? record d.description)
  let assignedTo ← readable (c.record.resolveUser (some d.assignedTo))
  addChild {
    kind := "activity"
    title := .str title
    body := .ofOption body
    assignedTo := assignedTo
    dueAt := due
    payload := [
      ("activity_type", .str d.kind.name),
      ("priority", .str d.priority.name),
      ("call_type", .opt (.str ·.name) d.call),
      ("meeting_type", .opt (.str ·.name) d.meeting),
      ("meeting_location", .ofOption d.location),
      ("attendees", .strings d.attendees)]
    createdBy := c.actor }

def addNote (body : String) (isPinned : Bool) : Scoped Effect := do
  let c ← context
  let body ← readable (Template.render c.record.context body)
  addChild {
    kind := "note"
    title := .null
    body := .str body
    assignedTo := .null
    dueAt := none
    payload := [("is_pinned", .bool isPinned)]
    createdBy := c.actor }

def draftTitle (plan : Option String) : String :=
  match plan with
  | some p => if p.isEmpty then "Enrollment draft" else "Enrollment draft " ++ p
  | none => "Enrollment draft"

/-- Drafts are only made where the action says so outright. -/
def draftEnrollment (d : EnrollmentDraft) : Scoped Effect := do
  if !d.isExplicit then throw (.misconfigured .draftNotExplicit)
  let c ← context
  addChild {
    kind := "enrollment_draft"
    title := .str (draftTitle d.plan)
    body := .null
    assignedTo := .null
    dueAt := none
    payload := [
      ("plan_id", .ofOption d.plan),
      ("effective_date", .opt .date d.effective),
      ("additional_data", .obj d.additional)]
    createdBy := c.actor }

end Action

end RecordFlow
