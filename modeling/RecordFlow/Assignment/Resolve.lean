import RecordFlow.Condition.Evaluate
import RecordFlow.Record.Store

/-! # Choosing an owner

A rule names an owner: always the same one, the next in turn, the one with the fewest open records,
or the first whose territory a record lies in. Nobody may be eligible.
-/
namespace RecordFlow
open RecordFlow.Flow

structure Decision where
  owner : Option String
  reason : String
  strategy : Option String
  rule : Option Uuid
  deriving Inhabited

namespace Decision

def encode (d : Decision) : Value := .obj [
  ("owner_id", .ofOption d.owner),
  ("reason", .str d.reason),
  ("strategy", .ofOption d.strategy),
  ("rule_id", .opt .uuid d.rule)]

def nobody (reason : String) : Decision := ⟨none, reason, none, none⟩

def chosen (owner reason : String) : Decision := ⟨some owner, reason, none, none⟩

end Decision

namespace AssignmentRule

/-- Takes the next candidate in turn. The turn is passed on only if nobody else passed it on since
the rule was looked at; otherwise it is tried again. -/
def rotate (rule : Uuid) (candidates : List Candidate) (advance : Bool) :
    (tries : Nat) → Flow Decision
  | 0 => return .nobody "rotation_contention"
  | tries + 1 => do
    let current ← fetch AssignmentRule rule
    let size : Int := candidates.length
    let index := current.cursor.fmod size
    let owner := (candidates[index.toNat]?.map Candidate.userId).getD ""
    if !advance then return .chosen owner s!"round_robin_preview:{index}"
    let next := (index + 1).fmod size
    let swapped ← swap rule current.version fun r : AssignmentRule => { r with cursor := next }
    if swapped then return .chosen owner s!"round_robin:{index}"
    rotate rule candidates advance tries

def leastOf : List (Nat × String) → Option (Nat × String)
  | [] => none
  | (load, user) :: rest =>
    match leastOf rest with
    | some (least, other) => if least < load then some (least, other) else some (load, user)
    | none => some (load, user)

def leastLoaded (r : AssignmentRule) (candidates : List Candidate) : Flow Decision := do
  let loads ← candidates.mapM fun c => do
    return ((← Record.countOpen (.str c.userId) (.ofOption r.module)), c.userId)
  match leastOf loads with
  | some (load, user) => return .chosen user s!"least_loaded:{load}"
  | none => return .nobody "no_candidates"

def territoryOf? (context : Value) : (position : Nat) → List Candidate → Option (Nat × String)
  | _, [] => none
  | position, c :: rest =>
    if Condition.holds? context none c.territory then some (position, c.userId)
    else territoryOf? context (position + 1) rest

def byTerritory (r : AssignmentRule) (candidates : List Candidate) (context : Value) :
    Except ShapeFault Decision := do
  let fallback ← r.configured? "fallback_owner_id"
  match territoryOf? context 0 candidates with
  | some (position, user) => return .chosen user s!"territory:{position}"
  | none => match fallback with
    | some owner => return .chosen owner "territory_fallback"
    | none => return .nobody "no_territory_match"

def fixedOwner (r : AssignmentRule) : Except ShapeFault Decision := do
  match ← r.configured? "owner_id" with
  | some owner => return .chosen owner "fixed_owner"
  | none => return .nobody "no_fixed_owner"

def apply (r : AssignmentRule) (record : Record) (advance : Bool) : Flow Decision := do
  let candidates ← valid (readCandidates (← shaped r.candidates.items))
  match Strategy.ofName? r.strategy with
  | some .fixed => shaped r.fixedOwner
  | some .roundRobin =>
    if candidates.isEmpty then return .nobody "no_candidates"
    rotate r.id candidates advance (max (← settings).assignmentTries 1).toNat
  | some .leastLoaded => r.leastLoaded candidates
  | some .territory => shaped (r.byTerritory candidates record.context)
  | none => return .nobody ("unknown_strategy:" ++ r.strategy)

end AssignmentRule

def Decision.strategyName? (d : Decision) : Option String := d.strategy.filter (!·.isEmpty)

def Decision.counted (d : Decision) : Flow Decision := do
  count (.assignment (d.strategyName?.getD "unknown") d.owner.isSome)
  return d

/-- The owner that a rule names for a record. Without `advance` the turn is only looked at. -/
def resolveAssignment (rule : Uuid) (record : Record) (advance : Bool) : Flow Decision := do
  match ← find? AssignmentRule rule with
  | none => Decision.counted ⟨none, "rule_not_found", none, some rule⟩
  | some r =>
    if !r.isEnabled then Decision.counted ⟨none, "rule_disabled", some r.strategy, some r.id⟩
    else
      let d ← r.apply record advance
      Decision.counted { d with strategy := some r.strategy, rule := some r.id }

end RecordFlow
