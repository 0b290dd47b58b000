import RecordFlow.Action.Encode
import RecordFlow.Condition.Parse
import RecordFlow.Value.Shape
import RecordFlow.Workflow.Definition

/-! # Assignment rule definitions

A rule names the users among whom an owner is chosen; a candidate may be restricted to a territory.
-/
namespace RecordFlow
open Schema

structure Candidate where
  userId : String
  territory : Option Condition
  deriving Inhabited

namespace Candidate

def decode : Decoder Candidate := object fun f => Candidate.mk
  <$> required f "user_id" nonEmpty
  <*> optional f "territory" none Condition.parse

def encode (c : Candidate) : Value :=
  .obj [("user_id", .str c.userId), ("territory", Condition.encode? c.territory)]

end Candidate

structure RuleDraft where
  name : String
  module : Option String
  strategy : Strategy
  candidates : List Candidate
  ownerId : Option String
  fallbackOwnerId : Option String
  isEnabled : Bool
  deriving Inhabited

namespace RuleDraft

def broken? (d : RuleDraft) : Option Rule :=
  match d.strategy with
  | .fixed => if isGiven d.ownerId then none else some .fixedOwner
  | .roundRobin | .leastLoaded =>
    if d.candidates.isEmpty then some (.candidates d.strategy.name) else none
  | .territory =>
    if d.candidates.isEmpty && !isGiven d.fallbackOwnerId then some .territoryCandidates else none

def decode : Decoder RuleDraft := object fun f =>
  let draft := RuleDraft.mk
    <$> required f "name" nonEmpty
    <*> optional f "module" none (nullable string)
    <*> required f "strategy" (oneOf Strategy.table)
    <*> optional f "candidates" [] (listOf Candidate.decode)
    <*> optional f "owner_id" none (nullable string)
    <*> optional f "fallback_owner_id" none (nullable string)
    <*> optional f "is_enabled" true bool
  draft.andThen fun d => obey d d.broken?

def encode (d : RuleDraft) : Value := .obj [
  ("name", .str d.name),
  ("module", .ofOption d.module),
  ("strategy", .str d.strategy.name),
  ("candidates", .list (d.candidates.map Candidate.encode)),
  ("owner_id", .ofOption d.ownerId),
  ("fallback_owner_id", .ofOption d.fallbackOwnerId),
  ("is_enabled", .bool d.isEnabled)]

end RuleDraft

end RecordFlow

/-! ## Stored assignment rules

A rule that rotates remembers the position of the next candidate; its version counts the writes to
that position. The strategy is kept by name: a name that no strategy has finds nobody.
-/
namespace RecordFlow
open Schema

structure AssignmentRule where
  id : Uuid
  name : String
  module : Option String
  strategy : String
  candidates : Value
  config : Value
  cursor : Int
  version : Int
  isEnabled : Bool
  deriving Inhabited

namespace AssignmentRule

def configured? (r : AssignmentRule) (key : String) : Except ShapeFault (Option String) := do
  let user := (← r.config.lookable).getD key
  return if user.isFalsy then none else some user.text

def encode (r : AssignmentRule) : Value := .present [
  ("id", .uuid r.id),
  ("name", .str r.name),
  ("module", .ofOption r.module),
  ("strategy", .str r.strategy),
  ("candidates_json", r.candidates),
  ("config_json", r.config),
  ("cursor", .int r.cursor),
  ("row_version", .int r.version),
  ("is_enabled", .bool r.isEnabled)]

/-- The candidates, in order; the first that cannot be read is reported. -/
def readCandidates : List Value → Checked (List Candidate)
  | [] => .valid []
  | v :: rest => (Candidate.decode v).andThen fun c => (readCandidates rest).map (c :: ·)

end AssignmentRule

end RecordFlow
