import RecordFlow.Schema.Issue
import RecordFlow.Value.Form

/-! # Stored jobs

A job waits until it is due, is claimed by one worker, and is tried again after a failure until its
attempts are used up.
-/
namespace RecordFlow
open Calendar

/-- The status of a job; one that only a hand can have written is kept by its name. -/
inductive JobStatus where
  | pending
  | running
  | completed
  | failed
  | cancelled
  | other (name : String)
  deriving DecidableEq, Inhabited

namespace JobStatus

def table : List (String × JobStatus) := [
  ("pending", .pending), ("running", .running), ("completed", .completed), ("failed", .failed),
  ("cancelled", .cancelled)]

def name : JobStatus → String
  | .other name => name
  | s => Schema.nameIn table s

def ofName (name : String) : JobStatus := (table.lookup name).getD (.other name)

end JobStatus

structure Job where
  id : Uuid
  kind : String
  status : JobStatus
  payload : Value
  runAt : Instant
  attempt : Int
  maxAttempts : Int
  record : Option Uuid
  key : Option String
  claimedBy : Option String
  claimedAt : Option Instant
  lastError : Option String
  result : Value
  correlation : Option String
  finishedAt : Option Instant
  createdAt : Instant
  deriving Inhabited

namespace Job

def encode (j : Job) : Value := .present [
  ("id", .uuid j.id),
  ("job_type", .str j.kind),
  ("status", .str j.status.name),
  ("payload_json", j.payload),
  ("run_at", .instant j.runAt),
  ("attempt", .int j.attempt),
  ("max_attempts", .int j.maxAttempts),
  ("record_id", .opt .uuid j.record),
  ("idempotency_key", .ofOption j.key),
  ("claimed_by", .ofOption j.claimedBy),
  ("claimed_at", .opt .instant j.claimedAt),
  ("last_error", .ofOption j.lastError),
  ("result_json", j.result),
  ("correlation_id", .ofOption j.correlation),
  ("finished_at", .opt .instant j.finishedAt)]

def clashes (a b : Job) : Bool := a.key.isSome && a.key = b.key

def isPending (j : Job) : Bool := j.status = .pending

def isDue (cutoff : Instant) (j : Job) : Bool := j.isPending && decide (j.runAt ≤ cutoff)

def claim (worker : String) (now : Instant) (j : Job) : Job :=
  { j with
    status := .running
    attempt := j.attempt + 1
    claimedBy := some worker
    claimedAt := some now }

def cancel (now : Instant) (j : Job) : Job :=
  { j with status := .cancelled, finishedAt := some now }

def complete (result : Fields) (now : Instant) (j : Job) : Job :=
  { j with status := .completed, result := .obj result, lastError := none, finishedAt := some now }

def postpone (error : String) (runAt : Instant) (j : Job) : Job :=
  { j with status := .pending, lastError := some error, runAt := runAt }

def fail (error : String) (now : Instant) (j : Job) : Job :=
  { j with status := .failed, lastError := some error, finishedAt := some now }

def mayRetry (j : Job) : Bool := j.attempt < j.maxAttempts

end Job

end RecordFlow
