import RecordFlow.Action.Effect
import RecordFlow.Assignment.Resolve
import RecordFlow.Record.Template

/-! # Actions on the record itself

These actions write to the record of the run. Every write is followed by the reaction to it, which
may run other workflows.
-/
namespace RecordFlow
open RecordFlow.Flow Scoped

abbrev Reaction := Record → Record → Scoped Unit

namespace Action

def applyPatch (react : Reaction) (changes : Fields) : Scoped Unit := do
  let before := (← context).record
  let after ← Record.patch before.id changes before.version
  changeContext fun c => { c with record := after }
  if (← wiring).reactions then react before after

/-- Texts are templates; other values stand for themselves. -/
def renderChanges (record : Value) : Fields → Except BadNumeral Fields
  | [] => .ok []
  | (key, .str s) :: rest => do
    let text ← Template.render record s
    return (key, .str text) :: (← renderChanges record rest)
  | (key, v) :: rest => do return (key, v) :: (← renderChanges record rest)

def valuesAt (record : Value) : List String → Except BadNumeral Fields
  | [] => .ok []
  | key :: rest => do return (key, ← record.fieldValue key) :: (← valuesAt record rest)

def updateFields (react : Reaction) (fields : Fields) : Scoped Effect := do
  let c ← context
  let changes ← readable (renderChanges c.record.context fields)
  let before ← readable (valuesAt c.record.context (Fields.keys changes))
  let output := [("fields", .obj changes), ("before", .obj before)]
  if c.isDry then return .planned output
  applyPatch react changes
  return .leaving output c.record.id.text

def moveStage (react : Reaction) (stage : String) : Scoped Effect := do
  let c ← context
  let output := [("from_stage", c.record.stage), ("to_stage", .str stage)]
  if c.record.stage.same (.str stage) then return .unchanged output
  if c.isDry then return .planned output
  applyPatch react [("stage", .str stage)]
  return .leaving output c.record.id.text

structure Choice where
  owner : Value
  reason : String
  strategy : Option String

/-- A user that is named goes before a rule. -/
def chooseOwner (rule : Option Uuid) (strategy : Option Strategy) (user : Option String) :
    Scoped Choice := do
  let c ← context
  match user, user.any (!·.isEmpty), rule with
  | some user, true, _ =>
    let owner ← readable (c.record.resolveUser (some user))
    return ⟨owner, "explicit_user", some Strategy.fixed.name⟩
  | _, _, some rule =>
    let d ← resolveAssignment rule c.record !c.isDry
    return ⟨.ofOption d.owner, d.reason, d.strategyName? <|> strategy.map Strategy.name⟩
  | _, _, none => throw (.misconfigured .assignTarget)

def assignOwner (react : Reaction) (rule : Option Uuid) (strategy : Option Strategy)
    (user : Option String) : Scoped Effect := do
  let c ← context
  let choice ← chooseOwner rule strategy user
  let strategyForm : Value := .ofOption choice.strategy
  let output := [
    ("previous_owner_id", c.record.ownerId),
    ("owner_id", choice.owner),
    ("strategy", strategyForm),
    ("reason", .str choice.reason),
    ("assigned", .bool !choice.owner.isNull)]
  if c.isDry then return .planned output
  if choice.owner.isNull then return .report output
  if choice.owner.same c.record.ownerId then return .unchanged output
  applyPatch react [("owner_id", choice.owner)]
  note (AuditEntry.actorName c.actor) "crm.record" c.record.id.text "automation.owner_assigned"
    (.obj [("owner_id", c.record.ownerId)])
    (.obj [("owner_id", choice.owner), ("strategy", strategyForm), ("reason", .str choice.reason)])
  return .leaving output
    (← valid ((Schema.string choice.owner).under (.field "side_effect_ref")))

end Action

end RecordFlow
