import RecordFlow.Audit.Entry
import RecordFlow.Failure
import RecordFlow.Http.Posting
import RecordFlow.Log.Entry
import RecordFlow.Metric.Sample
import RecordFlow.Items
import RecordFlow.Store.Tables

/-! # The world of an operation

The tables as they are and as they were saved last, and beside them what no rollback undoes: the
numbers that rows were given, the journal of what went out, and the answers of other services.
-/
namespace RecordFlow
open Calendar

structure Settings where
  appName : String
  appEnvironment : String
  maxActions : Int
  assignmentTries : Int
  backoffSeconds : Int
  maxAttempts : Int
  sweepBatch : Int
  worker : String
  scheduledBatch : Int
  taskDueDays : Int
  callDueHours : Int
  callTimeout : Double
  metricsEnabled : Bool
  deriving Inhabited

def Settings.standard : Settings where
  appName := "CRM Automation Engine"
  appEnvironment := "local"
  maxActions := 50
  assignmentTries := 5
  backoffSeconds := 60
  maxAttempts := 3
  sweepBatch := 100
  worker := "scheduler"
  scheduledBatch := 200
  taskDueDays := 1
  callDueHours := 4
  callTimeout := .ofDecimal false 10 0
  metricsEnabled := false

structure Wiring where
  handlers : List String
  cadences : Bool
  jobs : Bool
  reactions : Bool
  approvalsOfTransitions : Bool
  transitionsOfApprovals : Bool
  failingChannels : List String
  deriving Inhabited

def delayKind : String := "workflow_delay"
def retryKind : String := "workflow_retry"
def scheduledKind : String := "workflow_scheduled"
def cadenceKind : String := "cadence_step"

def Wiring.complete : Wiring where
  handlers := [delayKind, retryKind, scheduledKind, cadenceKind]
  cadences := true
  jobs := true
  reactions := true
  approvalsOfTransitions := true
  transitionsOfApprovals := true
  failingChannels := []

structure Call where
  url : String
  method : String
  headers : List (String × String)
  body : Value
  timeout : Double
  deriving Inhabited

def Call.encode (c : Call) : Value := .obj [
  ("url", .str c.url),
  ("method", .str c.method),
  ("headers", .obj (c.headers.map fun h => (h.1, .str h.2))),
  ("body", c.body),
  ("timeout", .double c.timeout)]

inductive Reply where
  | status (code : Int)
  | unreachable (text : String)
  deriving DecidableEq, Inhabited

structure Journal where
  audit : List AuditEntry
  events : List Fields
  calls : List Call
  samples : List Sample
  deriving Inhabited

namespace Journal

def empty : Journal := ⟨[], [], [], []⟩

/-- What went out since another journal, which is the start of this one. -/
def since (new old : Journal) : Journal where
  audit := new.audit.drop old.audit.length
  events := new.events.drop old.events.length
  calls := new.calls.drop old.calls.length
  samples := new.samples.drop old.samples.length

/-- The parts that are not empty; samples are only ever counted. -/
def encode (j : Journal) : Fields :=
  let parts := [
    ("audit", j.audit.map AuditEntry.encode),
    ("events", j.events.map Value.obj),
    ("webhooks", j.calls.map Call.encode)]
  (parts.filter fun p => !p.2.isEmpty).map fun p => (p.1, .list p.2)

end Journal

structure World where
  saved : Tables
  tables : Tables
  numbers : List (TableName × Nat)
  journal : Journal
  clock : Moment
  settings : Settings
  wiring : Wiring
  ambient : Ambient
  replies : List Reply
  rivalWrites : Nat
  deriving Inhabited

namespace World

def initial (clock : Moment) (settings : Settings) (wiring : Wiring) (replies : List Reply) :
    World where
  saved := .empty
  tables := .empty
  numbers := []
  journal := .empty
  clock := clock
  settings := settings
  wiring := wiring
  ambient := ⟨none, none⟩
  replies := replies
  rivalWrites := 0

def nextNumber (w : World) (t : TableName) : Nat := (w.numbers.lookup t).getD 0 + 1

def useNumber (w : World) (t : TableName) : World :=
  { w with numbers := (t, w.nextNumber t) :: w.numbers.filter (·.1 ≠ t) }

end World

/-- An operation on the world. The state of the world survives a failure. -/
abbrev Flow := EStateM Failure World

namespace Flow

def moment : Flow Moment := return (← get).clock

/-- The time as rows keep it: what the clock shows. -/
def now : Flow Instant := return (← moment).wall

def settings : Flow Settings := return (← get).settings

def wiring : Flow Wiring := return (← get).wiring

def ambient : Flow Ambient := return (← get).ambient

def tables : Flow Tables := return (← get).tables

def journal : Flow Journal := return (← get).journal

def commit : Flow Unit := modify fun w => { w with saved := w.tables }

def rollback : Flow Unit := modify fun w => { w with tables := w.saved }

def count (s : Sample) : Flow Unit :=
  modify fun w => { w with journal := { w.journal with samples := w.journal.samples ++ [s] } }

def note (actor : Value) (entityType entityId action : String) (before after : Value) :
    Flow Unit :=
  modify fun w =>
    let entry : AuditEntry :=
      ⟨actor, entityType, entityId, action, before, after, w.ambient.correlation⟩
    { w with journal := { w.journal with audit := w.journal.audit ++ [entry] } }

def taken {α : Type} : Except CellFault α → Flow α
  | .ok a => pure a
  | .error cause => throw cause.failure

def orThrow {α : Type} : Except Failure α → Flow α
  | .ok a => pure a
  | .error f => throw f

def readable {α : Type} : Except BadNumeral α → Flow α
  | .ok a => pure a
  | .error cause => throw (.numeral cause)

def shaped {α : Type} : Except ShapeFault α → Flow α
  | .ok a => pure a
  | .error cause => throw (.shape cause)

def inTime {α : Type} : Except OutOfRange α → Flow α
  | .ok a => pure a
  | .error cause => throw (.time cause)

def valid {α : Type} : Schema.Checked α → Flow α
  | .valid a => pure a
  | .invalid issues => throw (.invalid issues)

def stepAt {α : Type} (steps : List α) (position : Int) : Flow α :=
  match itemAt? steps position with
  | some step => pure step
  | none => throw .noStep

def correlated {α : Type} (correlation : Option String) (part : Flow α) : Flow α := do
  let before := (← get).ambient.correlation
  modify fun w => { w with ambient := { w.ambient with correlation := correlation } }
  try part finally
    modify fun w => { w with ambient := { w.ambient with correlation := before } }

end Flow

end RecordFlow
