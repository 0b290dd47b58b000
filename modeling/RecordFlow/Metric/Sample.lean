import RecordFlow.Items

/-! # Metrics

A sample counts one event under a name and labels; the count of a series is the number of its
samples.
-/
namespace RecordFlow

structure Sample where
  name : String
  labels : List (String × String)
  deriving DecidableEq, Inhabited

namespace Sample

def series (s : Sample) : String :=
  let labels := sorted (fun a b => decide (a.1 ≤ b.1)) s.labels
  s.name ++ "\x7b" ++ ",".intercalate (labels.map fun l => l.1 ++ "=" ++ l.2) ++ "\x7d"

/-- The counts of all series, in the order in which they were first touched. -/
def tally (samples : List Sample) : List (String × Nat) :=
  samples.foldl
    (fun counts s =>
      let key := s.series
      if counts.any (·.1 = key) then
        counts.map fun c => if c.1 = key then (c.1, c.2 + 1) else c
      else counts ++ [(key, 1)])
    []

def run (source status : String) : Sample :=
  ⟨"automation_runs_total", [("source", source), ("status", status)]⟩

def action (kind status : String) : Sample :=
  ⟨"automation_actions_total", [("action_type", kind), ("status", status)]⟩

def guardrail (reason : String) : Sample :=
  ⟨"automation_guardrail_blocks_total", [("reason", reason)]⟩

def job (kind status : String) : Sample :=
  ⟨"scheduler_jobs_total", [("job_type", kind), ("status", status)]⟩

def assignment (strategy : String) (assigned : Bool) : Sample :=
  ⟨"assignment_decisions_total",
    [("strategy", strategy), ("outcome", if assigned then "assigned" else "unassigned")]⟩

def approval (action outcome : String) : Sample :=
  ⟨"approval_actions_total", [("action", action), ("outcome", outcome)]⟩

def request (method path status : String) : Sample :=
  ⟨"http_requests_total", [("method", method), ("path", path), ("status", status)]⟩

end Sample

end RecordFlow
