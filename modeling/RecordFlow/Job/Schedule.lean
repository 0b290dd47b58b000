import RecordFlow.Failure
import RecordFlow.Store.Access
import RecordFlow.Value.Text

/-! # Scheduling jobs

A job with a key is scheduled once: asking again answers the job that is there. Only a pending job
can be cancelled or claimed.
-/
namespace RecordFlow.Job
open RecordFlow.Flow Calendar

structure Draft where
  kind : String
  payload : Value
  runAt : Option Instant
  record : Option Uuid
  maxAttempts : Option Int
  key : Option String
  deriving Inhabited

def givenOr (given : Option Int) (fallback : Int) : Int :=
  match given with
  | some n => if n = 0 then fallback else n
  | none => fallback

def add (d : Draft) : Flow Job := do
  let t ← now
  let limit := givenOr d.maxAttempts (← settings).maxAttempts
  let correlation := (← ambient).correlation
  insertIf
    (fun id => {
      id := id
      kind := d.kind
      status := .pending
      payload := d.payload
      runAt := d.runAt.getD t
      attempt := 0
      maxAttempts := limit
      record := d.record
      key := d.key
      claimedBy := none
      claimedAt := none
      lastError := none
      result := .null
      correlation := correlation
      finishedAt := none
      createdAt := t })
    fun rows row => !rows.any row.clashes

/-- An empty key is not looked up. -/
def schedule (d : Draft) : Flow Job := do
  match d.key with
  | some key =>
    if key.isEmpty then add d
    else match (← all Job).find? fun j => j.key = some key with
      | some j => return j
      | none => add d
  | none => add d

def cancelPending (id : Uuid) : Flow Bool := do
  let t ← now
  let n ← updateWhere (fun j : Job => j.id = id && j.isPending) (cancel t)
  return n = 1

/-- Claims a pending job for a worker; of several workers only one succeeds. -/
def claimPending (id : Uuid) (worker : Option String) : Flow Bool := do
  let t ← now
  let own := (← settings).worker
  let worker := match worker with
    | some w => if w.isEmpty then own else w
    | none => own
  let n ← updateWhere (fun j : Job => j.id = id && j.isPending) (claim worker t)
  commit
  return n = 1

def pendingFor (record : Uuid) : Flow (List Job) := do
  let rows := (← all Job).filter fun j => j.record = some record && j.isPending
  return sorted (fun a b => decide (a.runAt ≤ b.runAt)) rows

end RecordFlow.Job

/-! ## Reading payloads

What a job was told is data that anybody may have written: numbers may come as text, and
identifiers may be missing or malformed.
-/
namespace RecordFlow

namespace Value

def whole : Value → Except Failure Int
  | .bool b => .ok (if b then 1 else 0)
  | .int n => .ok n
  | .double d => match d.truncate? with
    | some n => .ok n
    | none => .error .infinite
  | .str s => (Number.readWhole 10 s).mapError .numeral
  | v => .error (.notConvertible v.kindName)

def identifier (v : Value) : Except Failure Uuid := (Uuid.read v.text).mapError .identifier

def identifier? (v : Value) : Option Uuid := v.identifier.toOption

def demand (v : Value) (key : String) : Except Failure Value := do
  match (← v.keyed.mapError .shape).get? key with
  | some v => return v
  | none => throw (.missingKey key)

end Value

/-- The number under a key; what does not count as given stands for the default. -/
def Fields.wholeOr (fields : Fields) (key : String) (fallback : Int) : Except Failure Int :=
  ((fields.getD key).orElse (.int fallback)).whole

end RecordFlow
