import RecordFlow.Cadence.Definition
import RecordFlow.Job.Schedule

/-! # Enrollments

A record is enrolled in a cadence at most once at a time. An active enrollment waits for the job of
its next step; a paused one keeps its job waiting, which then finds the enrollment paused.
-/
namespace RecordFlow
open RecordFlow.Flow Calendar

namespace Cadence

def readSteps (c : Cadence) : Flow (List CadenceStep) := valid (storedCadenceSteps c.steps)

end Cadence

namespace CadenceStep

def dueAfter (s : CadenceStep) (start : Instant) : Except OutOfRange Instant :=
  start.addSeconds? (s.delayDays * 86400 + s.delayHours * 3600)

end CadenceStep

namespace Enrollment

def entity : String := "automation.cadence_enrollment"

def audit (e : Enrollment) (action : String) (before : Option Fields) (actor : Value) :
    Flow Unit :=
  note (AuditEntry.actorName actor) entity e.id.text action (.opt .obj before)
    (.obj (e.state ++ [("record_id", .uuid e.record)]))

def scheduleStep (e : Enrollment) (runAt : Instant) : Flow Enrollment := do
  let job ← Job.schedule {
    kind := cadenceKind
    payload := .obj [("enrollment_id", .uuid e.id), ("step_index", .int e.step)]
    runAt := some runAt
    record := some e.record
    maxAttempts := none
    key := none }
  let e := { e with pendingJob := some job.id, nextStepDueAt := some runAt }
  store e
  return e

def openStep (e : Enrollment) (s : CadenceStep) (start : Instant) : Flow Enrollment := do
  let due ← inTime (s.dueAfter start)
  e.scheduleStep due

def isLiveFor (cadence record : Uuid) (e : Enrollment) : Bool :=
  e.cadence = cadence && e.record = record && e.status.isLive

def enroll (cadence record : Uuid) (enrolledBy : Value) : Flow Enrollment := do
  let c ← fetch Cadence cadence
  if !c.isEnabled then throw (.enrollment (.disabled cadence))
  match ← c.readSteps with
  | [] => throw (.enrollment (.noSteps cadence))
  | first :: _ =>
    if (← all Enrollment).any (isLiveFor cadence record) then
      throw (.enrollment (.alreadyEnrolled record cadence))
    let t ← now
    let e ← insertTaken (fun id => do
      let by_ ← Cell.text enrolledBy
      return {
        id := id
        cadence := cadence
        record := record
        status := EnrollmentStatus.active
        step := 0
        nextStepDueAt := none
        pendingJob := none
        enrolledBy := by_
        stoppedReason := none
        completedAt := none
        createdAt := t }) fun _ (_ : Enrollment) => true
    let e ← e.openStep first t
    e.audit "cadence.enrolled" none enrolledBy
    return e

def halt (e : Enrollment) (reason : String) (actor : Option String) : Flow Unit := do
  if let some job := e.pendingJob then
    let _ ← Job.cancelPending job
  let stopped := e.stop reason
  store stopped
  stopped.audit "cadence.stopped" (some e.state) (.ofOption actor)

/-- Ends the live enrollments of a record, in one cadence or in all, and counts them. -/
def unenroll (record : Uuid) (cadence : Option Uuid) (reason : String) (actor : Option String) :
    Flow Nat := do
  let live := (← all Enrollment).filter fun e =>
    e.record = record && e.status.isLive && cadence.all (· = e.cadence)
  for e in live do
    e.halt reason actor
  return live.length

def pause (id : Uuid) (actor : Option String) : Flow Enrollment := do
  let e ← fetch Enrollment id
  if e.status ≠ .active then throw (.enrollment (.cannotPause e.status.name))
  let paused := { e with status := .paused }
  store paused
  paused.audit "cadence.paused" (some e.state) (.ofOption actor)
  return paused

/-- The time at which a resumed step runs: when it was due, but not before now. A time in a row is
read as a universal one. -/
def resumeAt (e : Enrollment) (m : Moment) : Instant :=
  match e.nextStepDueAt with
  | some due => if m.universal < due then due else m.wall
  | none => m.wall

def resume (id : Uuid) (actor : Option String) : Flow Enrollment := do
  let e ← fetch Enrollment id
  if e.status ≠ .paused then throw (.enrollment (.cannotResume e.status.name))
  let c ← fetch Cadence e.cadence
  let steps ← c.readSteps
  let m ← moment
  let active := { e with status := .active }
  let resumed ←
    if (steps.length : Int) ≤ e.step then do
      let done := active.complete m.wall
      store done
      pure done
    else do
      let _ ← stepAt steps e.step
      active.scheduleStep (e.resumeAt m)
  resumed.audit "cadence.resumed" (some e.state) (.ofOption actor)
  return resumed

def ofRecord (record : Uuid) : Flow (List Enrollment) := do
  let rows := (← all Enrollment).filter (·.record = record)
  return sorted (fun a b => decide (a.createdAt ≤ b.createdAt)) rows

end Enrollment

end RecordFlow
