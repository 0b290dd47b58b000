import RecordFlow.Blueprint.Definition
import RecordFlow.Condition.Evaluate
import RecordFlow.Failure
import RecordFlow.Record.Basic

/-! # Checking transitions

A record may move to a stage if its blueprint has a transition there, the condition of the
transition holds of the record with its updates, and every required field is filled.
-/
namespace RecordFlow

inductive Refusal where
  | noBlueprint
  | disabled
  | noTransition (source target : String)
  | condition
  | missingFields (fields : List String)
  | failed (cause : Failure)
  deriving DecidableEq, Inhabited

namespace Refusal

def reason : Refusal → String
  | .noBlueprint => "no_blueprint"
  | .disabled => "blueprint_disabled"
  | .noTransition source target => "no transition from " ++ source ++ " to " ++ target
  | .condition => "transition_condition_not_met"
  | .missingFields _ => "missing_required_fields"
  | .failed cause => "validation_error: " ++ cause.message

def missing : Refusal → List String
  | .missingFields fields => fields
  | _ => []

end Refusal

/-- The outcome of a check, and whether the transition asks for an approval. -/
structure Validation where
  refusal : Option Refusal
  requiresApproval : Bool
  deriving DecidableEq, Inhabited

namespace Validation

def refused (r : Refusal) : Validation := ⟨some r, false⟩

def allowed (v : Validation) : Bool := v.refusal.isNone

def reason (v : Validation) : Option String := v.refusal.map Refusal.reason

def encode (v : Validation) : Value := .obj [
  ("allowed", .bool v.allowed),
  ("missing_fields", .strings ((v.refusal.map Refusal.missing).getD [])),
  ("reason", .ofOption v.reason),
  ("requires_approval", .bool v.requiresApproval)]

end Validation

namespace FieldRequirement

def isUnmet (r : FieldRequirement) (context : Value) : Except BadNumeral Bool :=
  if Condition.holds? context none r.condition then
    (context.fieldValue r.field).map Value.isBlank
  else .ok false

end FieldRequirement

def unmetFields (context : Value) : List FieldRequirement → Except BadNumeral (List String)
  | [] => .ok []
  | r :: rest => do
    let unmet ← r.isUnmet context
    let more ← unmetFields context rest
    return if unmet then r.field :: more else more

def Transition.check (t : Transition) (candidate : Record) : Except BadNumeral Validation :=
  let context := candidate.context
  if !Condition.holds? context none t.condition then .ok ⟨some .condition, t.requiresApproval⟩
  else do
    let missing ← unmetFields context t.requiredFields
    return ⟨if missing.isEmpty then none else some (.missingFields missing), t.requiresApproval⟩

/-- Checks a move of a record to a stage; a failure of the check is a refusal. -/
def Blueprint.check (b : Blueprint) (r : Record) (target : String) (updates : Fields) :
    Validation :=
  if !b.isEnabled then .refused .disabled
  else match b.findTransition r.stage target with
    | none => .refused (.noTransition r.stage.text target)
    | some t => match t.check (r.merged updates) with
      | .ok v => v
      | .error cause => .refused (.failed (.numeral cause))

end RecordFlow
