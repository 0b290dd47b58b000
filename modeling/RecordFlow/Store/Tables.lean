import RecordFlow.Approval.Definition
import RecordFlow.Assignment.Definition
import RecordFlow.Blueprint.Definition
import RecordFlow.Cadence.Definition
import RecordFlow.Job.Stored
import RecordFlow.Message.Stored
import RecordFlow.Record.Stored
import RecordFlow.Run.Result
import RecordFlow.Store.TableName
import RecordFlow.Workflow.Stored

/-! # Tables

A table is a list of rows in the order of their insertion. A kind of row that is stored knows its
table, its identifier and its whole numbers.
-/
namespace RecordFlow

structure Tables where
  records : List StoredRecord
  children : List Child
  workflows : List StoredWorkflow
  runs : List Run
  cooldowns : List Cooldown
  rules : List AssignmentRule
  cadences : List Cadence
  enrollments : List Enrollment
  jobs : List Job
  blueprints : List StoredBlueprint
  stageChanges : List StageChange
  processes : List ApprovalProcess
  approvals : List Approval
  approvalEntries : List ApprovalEntry
  messages : List Message
  deriving Inhabited

def Tables.empty : Tables := ⟨[], [], [], [], [], [], [], [], [], [], [], [], [], [], []⟩

class Stored (ρ : Type) where
  name : TableName
  id : ρ → Uuid
  rows : Tables → List ρ
  setRows : List ρ → Tables → Tables
  encode : ρ → Value
  /-- The whole numbers of a row. -/
  wholes : ρ → List Int

instance : Stored StoredRecord where
  name := .record
  id := (·.id)
  rows := (·.records)
  setRows rows t := { t with records := rows }
  encode := (·.encode)
  wholes r := [r.version]

instance : Stored Child where
  name := .child
  id := (·.id)
  rows := (·.children)
  setRows rows t := { t with children := rows }
  encode := (·.encode)
  wholes _ := []

instance : Stored StoredWorkflow where
  name := .workflow
  id := (·.id)
  rows := (·.workflows)
  setRows rows t := { t with workflows := rows }
  encode := (·.encode)
  wholes w := [w.priority, w.runCountCap, w.cooldownSeconds].filterMap Value.int?

instance : Stored Run where
  name := .run
  id := (·.id)
  rows := (·.runs)
  setRows rows t := { t with runs := rows }
  encode := (·.encode)
  wholes r := [r.consumed, r.depth].filterMap Value.int?

instance : Stored Cooldown where
  name := .idempotencyKey
  id := (·.id)
  rows := (·.cooldowns)
  setRows rows t := { t with cooldowns := rows }
  encode := (·.encode)
  wholes _ := []

instance : Stored AssignmentRule where
  name := .rule
  id := (·.id)
  rows := (·.rules)
  setRows rows t := { t with rules := rows }
  encode := (·.encode)
  wholes r := [r.cursor, r.version]

instance : Stored Cadence where
  name := .cadence
  id := (·.id)
  rows := (·.cadences)
  setRows rows t := { t with cadences := rows }
  encode := (·.encode)
  wholes _ := []

instance : Stored Enrollment where
  name := .enrollment
  id := (·.id)
  rows := (·.enrollments)
  setRows rows t := { t with enrollments := rows }
  encode := (·.encode)
  wholes e := [e.step]

instance : Stored Job where
  name := .job
  id := (·.id)
  rows := (·.jobs)
  setRows rows t := { t with jobs := rows }
  encode := (·.encode)
  wholes j := [j.attempt, j.maxAttempts]

instance : Stored StoredBlueprint where
  name := .blueprint
  id := (·.id)
  rows := (·.blueprints)
  setRows rows t := { t with blueprints := rows }
  encode := (·.encode)
  wholes _ := []

instance : Stored StageChange where
  name := .stageHistory
  id := (·.id)
  rows := (·.stageChanges)
  setRows rows t := { t with stageChanges := rows }
  encode := (·.encode)
  wholes _ := []

instance : Stored ApprovalProcess where
  name := .process
  id := (·.id)
  rows := (·.processes)
  setRows rows t := { t with processes := rows }
  encode := (·.encode)
  wholes _ := []

instance : Stored Approval where
  name := .approval
  id := (·.id)
  rows := (·.approvals)
  setRows rows t := { t with approvals := rows }
  encode := (·.encode)
  wholes a := [a.step, a.version]

instance : Stored ApprovalEntry where
  name := .approvalLog
  id := (·.id)
  rows := (·.approvalEntries)
  setRows rows t := { t with approvalEntries := rows }
  encode := (·.encode)
  wholes e := [e.step]

instance : Stored Message where
  name := .message
  id := (·.id)
  rows := (·.messages)
  setRows rows t := { t with messages := rows }
  encode := (·.encode)
  wholes _ := []

namespace Tables

def encodeTable (t : Tables) : TableName → List Value
  | .record => t.records.map Stored.encode
  | .child => t.children.map Stored.encode
  | .workflow => t.workflows.map Stored.encode
  | .run => t.runs.map Stored.encode
  | .idempotencyKey => t.cooldowns.map Stored.encode
  | .rule => t.rules.map Stored.encode
  | .cadence => t.cadences.map Stored.encode
  | .enrollment => t.enrollments.map Stored.encode
  | .job => t.jobs.map Stored.encode
  | .blueprint => t.blueprints.map Stored.encode
  | .stageHistory => t.stageChanges.map Stored.encode
  | .process => t.processes.map Stored.encode
  | .approval => t.approvals.map Stored.encode
  | .approvalLog => t.approvalEntries.map Stored.encode
  | .message => t.messages.map Stored.encode

def encode (t : Tables) : Value :=
  .obj (TableName.table.filterMap fun e =>
    match t.encodeTable e.2 with
    | [] => none
    | rows => some (e.1, .list rows))

/-- The tables of the given names, also those without rows. -/
def encodeOnly (t : Tables) (names : List String) : Value :=
  .obj ((TableName.table.filter fun e => names.contains e.1).map fun e =>
    (e.1, .list (t.encodeTable e.2)))

end Tables

end RecordFlow
