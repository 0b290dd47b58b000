import RecordFlow.Approval.Act
import RecordFlow.Job.Sweep

/-! # Ticks

What happens in the background at every tick: workflows whose interval has passed are scheduled,
approvals whose time is over expire, and jobs that are due run.
-/
namespace RecordFlow
open RecordFlow.Flow Calendar

structure Tick where
  scheduled : Nat
  expired : Nat
  jobs : Sweep
  deriving DecidableEq, Inhabited

namespace Tick

def encode (t : Tick) : Value := .obj [
  ("scheduled_workflows", .nat t.scheduled),
  ("expired_approvals", .nat t.expired),
  ("jobs", t.jobs.encode)]

def run (m : Moment) : Flow Tick := do
  let scheduled ← Workflow.scheduleDue m
  let expired ← Approval.expire m (← Approval.expirable)
  let sweep ← Job.process m.wall none none
  return ⟨scheduled.length, expired, sweep⟩

end Tick

end RecordFlow
