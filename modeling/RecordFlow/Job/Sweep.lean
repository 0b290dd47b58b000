import RecordFlow.Cadence.Step
import RecordFlow.Workflow.Jobs

/-! # Sweeps

A sweep goes through the jobs that are due. Each is claimed, run by the handler of its kind, and
completed; a job whose handler fails waits longer after every attempt and fails in the end.
-/
namespace RecordFlow
open RecordFlow.Flow Calendar

inductive JobOutcome where
  | completed
  | rescheduled
  | failed
  deriving DecidableEq, Inhabited

def JobOutcome.name : JobOutcome → String
  | .completed => "completed"
  | .rescheduled => "pending"
  | .failed => "failed"

structure Sweep where
  claimed : Nat
  completed : Nat
  failed : Nat
  rescheduled : Nat
  skipped : Nat
  jobs : List Uuid
  deriving DecidableEq, Inhabited

namespace Sweep

def start : Sweep := ⟨0, 0, 0, 0, 0, []⟩

def skip (s : Sweep) : Sweep := { s with skipped := s.skipped + 1 }

def add (s : Sweep) (job : Uuid) (outcome : JobOutcome) : Sweep :=
  let s := { s with claimed := s.claimed + 1, jobs := s.jobs ++ [job] }
  match outcome with
  | .completed => { s with completed := s.completed + 1 }
  | .rescheduled => { s with rescheduled := s.rescheduled + 1 }
  | .failed => { s with failed := s.failed + 1 }

def encode (s : Sweep) : Value := .obj [
  ("claimed", .nat s.claimed),
  ("completed", .nat s.completed),
  ("failed", .nat s.failed),
  ("rescheduled", .nat s.rescheduled),
  ("skipped", .nat s.skipped),
  ("job_ids", .list (s.jobs.map .uuid))]

end Sweep

namespace Job

def handle (j : Job) : Flow Fields := do
  if !(← wiring).handlers.contains j.kind then throw (.job (.noHandler j.kind))
  if j.kind = delayKind then Workflow.resumeDelayed j.payload
  else if j.kind = retryKind then Workflow.retryAction j.payload
  else if j.kind = scheduledKind then Workflow.runScheduled j.id j.payload
  else if j.kind = cadenceKind then Enrollment.processStep j.id j.payload
  else throw (.job (.noHandler j.kind))

def errorLimit : Nat := 2000

/-- Attempts below this count wait no time that a double could tell from none. -/
def leastBackoff : Nat := 2000

/-- The wait after a failed attempt doubles with every attempt. Attempts before the first wait
fractions of a second. -/
def backoff (base attempt : Int) : Except OutOfRange Int :=
  if 0 ≤ attempt then seconds? (base * Int.pow 2 attempt.toNat)
  else if (Double.ofInt? base).isNone then .error .conversion
  else secondsOf?
    (.nearest (decide (base < 0)) base.natAbs (Nat.pow 2 (min leastBackoff attempt.natAbs)))

def recordFailure (id : Uuid) (cause : Failure) : Flow JobOutcome := do
  let j ← fetch Job id
  let error := String.ofList (cause.message.toList.take errorLimit)
  let t ← now
  if j.mayRetry then
    let wait ← inTime (backoff (← settings).backoffSeconds j.attempt)
    let runAt ← inTime (t.add? wait)
    store (j.postpone error runAt)
    commit
    return .rescheduled
  else
    store (j.fail error t)
    commit
    return .failed

def orFailure {α : Type} (part : Flow α) : Flow (Except Failure α) := fun w =>
  match part w with
  | .ok a w => .ok (.ok a) w
  | .error e w => .ok (.error e) w

/-- Runs a job that is claimed; counts it also if its failure cannot be recorded. -/
def runClaimed (id : Uuid) : Flow JobOutcome := do
  let j ← fetch Job id
  let correlation := match j.correlation with
    | some c => if c.isEmpty then none else some c
    | none => none
  correlated (correlation <|> (← ambient).correlation) do
    match ← orFailure j.handle with
    | .ok output =>
      let done ← fetch Job id
      store (done.complete output (← now))
      commit
      count (.job j.kind JobOutcome.completed.name)
      return .completed
    | .error cause =>
      rollback
      match ← orFailure (recordFailure id cause) with
      | .ok outcome =>
        count (.job j.kind outcome.name)
        return outcome
      | .error cause =>
        count (.job j.kind JobOutcome.failed.name)
        throw cause

def dueIds (cutoff : Instant) (limit : Int) : Flow (List Uuid) := do
  let rows := (← all Job).filter (·.isDue cutoff)
  let rows := sorted (fun a b =>
    decide (a.runAt < b.runAt) || (a.runAt = b.runAt && decide (a.createdAt ≤ b.createdAt))) rows
  return (← Record.limited limit rows).map Job.id

/-- Claims and runs the jobs in order; one that somebody else took is skipped. -/
def runEach (worker : Option String) : List Uuid → Sweep → Flow Sweep
  | [], s => return s
  | id :: rest, s => do
    if ← claimPending id worker then
      let outcome ← runClaimed id
      runEach worker rest (s.add id outcome)
    else runEach worker rest s.skip

def process (cutoff : Instant) (limit : Option Int) (worker : Option String) : Flow Sweep := do
  let ids ← dueIds cutoff (givenOr limit (← settings).sweepBatch)
  runEach worker ids .start

end Job

end RecordFlow
