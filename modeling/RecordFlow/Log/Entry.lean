import RecordFlow.Log.Message

/-! # Log entries

An entry is an object: level, name of the logger, message, what it correlates with, and those of
its extra fields that are known.
-/
namespace RecordFlow

structure Ambient where
  correlation : Option String
  run : Option String
  deriving DecidableEq, Inhabited

namespace Log

inductive Level where
  | info
  | warning
  | error
  deriving DecidableEq, Inhabited

def Level.name : Level → String
  | .info => "INFO"
  | .warning => "WARNING"
  | .error => "ERROR"

/-- Failures of the client are warnings, failures of the service errors. -/
def levelFor (status : Int) : Level :=
  if 500 ≤ status then .error else if 400 ≤ status then .warning else .info

def knownFields : List String := [
  "method", "path", "status_code", "duration_ms", "job_id", "job_type", "status", "error",
  "reason", "workflow_id", "run_id", "record_id", "action_type", "actions_consumed",
  "max_actions", "attempt", "strategy", "owner_id", "enrollment_id", "approval_id",
  "blueprint_id", "target_stage"]

def errorLimit : Nat := 500

def shortened (field : String × Value) : String × Value :=
  match field with
  | ("error", .str s) => ("error", .str (String.ofList (s.toList.take errorLimit)))
  | field => field

def written (extra : Fields) : Fields :=
  (extra.filter fun f => knownFields.contains f.1).map shortened

/-- What an entry is made of. The extra fields may replace the level, the logger, the message and
its arguments. -/
structure Report where
  level : String
  logger : String
  message : Value
  arguments : List Value
  extra : Fields
  deriving Inhabited

def Report.attribute (r : Report) (key : String) (standard : Value) : Value :=
  (r.extra.get? key).getD standard

def Report.supply? (r : Report) : Option Supply :=
  match r.extra.get? "args" with
  | some v => if v.isFalsy then none else some (.ofValue v)
  | none => if r.arguments.isEmpty then none else some (.ofList r.arguments)

def Report.text (r : Report) : Except Misfit String :=
  let message := (r.attribute "msg" r.message).text
  match r.supply? with
  | some s => format message s
  | none => .ok message

/-- The entry. What it correlates with is its own if it brings one, else the ambient one. -/
def Report.entry (r : Report) (ambient : Ambient) : Except Misfit Value := do
  let message ← r.text
  let trace ← (trace? (r.extra.getD "exc_info")).mapError .trace
  let traced := (trace.map fun t => ("exception", .str t)).toList
  let own := r.extra.getD "automation_run_id"
  .ok (.obj [
    ("level", r.attribute "levelname" (.str r.level)),
    ("logger", r.attribute "name" (.str r.logger)),
    ("msg", .str message),
    ("correlation_id", (r.extra.getD "correlation_id").orElse (.ofOption ambient.correlation)),
    ("automation_run_id", if own.isNull then .ofOption ambient.run else own),
    ("fields", .obj (written r.extra ++ traced))])

end Log

end RecordFlow
