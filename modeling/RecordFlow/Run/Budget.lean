import RecordFlow.Uuid
import RecordFlow.Value.Basic

/-! # Action budgets

All runs of one chain of triggers share a budget of actions. An action is refused once the budget is
used up, and the refusal says what was used and what was refused.
-/
namespace RecordFlow

structure Budget where
  maxActions : Int
  consumed : Int
  deriving DecidableEq, Inhabited

/-- The refusal of an action. The run in which it happened is entered by that run. -/
structure LimitReached where
  maxActions : Int
  consumed : Int
  blockedKind : String
  cappedRun : Option Uuid
  deriving DecidableEq, Inhabited

namespace Budget

def remaining (b : Budget) : Nat := (b.maxActions - b.consumed).toNat

def consume (b : Budget) (kind : String) : Except LimitReached Budget :=
  if b.maxActions ≤ b.consumed then .error ⟨b.maxActions, b.consumed, kind, none⟩
  else .ok { b with consumed := b.consumed + 1 }

theorem remaining_consume {b c : Budget} {kind : String} (h : b.consume kind = .ok c) :
    c.remaining + 1 = b.remaining := by
  unfold consume at h
  split at h
  · cases h
  · cases h
    simp only [remaining]
    omega

end Budget

namespace LimitReached

def code : String := "WORKFLOW_LIMIT_EXCEEDED"

def reason : String := "MAX_ACTIONS"

/-- Enters the run in which the limit was met, unless a run is entered already. -/
def inRun (l : LimitReached) (run : Uuid) : LimitReached :=
  { l with cappedRun := some (l.cappedRun.getD run) }

def encode (l : LimitReached) : Fields := [
  ("reason", .str reason),
  ("max_actions", .int l.maxActions),
  ("actions_consumed", .int l.consumed),
  ("blocked_action_type", .str l.blockedKind)]
  ++ match l.cappedRun with
    | some run => [("capped_run_id", .str run.text)]
    | none => []

end LimitReached

end RecordFlow
