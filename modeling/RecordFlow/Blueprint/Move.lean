import RecordFlow.Approval.Submit
import RecordFlow.Blueprint.Definition
import RecordFlow.Blueprint.Validation
import RecordFlow.Job.Sweep

/-! # Moving records between stages

A move is checked, then applied as a run: the updates of fields, the move itself, and what the
transition does besides. A transition that asks for an approval is applied once the approval is
given, and only once.
-/
namespace RecordFlow
open RecordFlow.Flow

inductive BlueprintRef where
  | byId (id : Uuid)
  | ofModule
  | given (b : Blueprint)
  deriving Inhabited

structure MoveResult where
  success : Bool
  validation : Option Validation
  fromStage : Value
  toStage : Option String
  requiresApproval : Bool
  approval : Option Uuid
  run : Option RunResult
  error : Option String
  deriving Inhabited

namespace MoveResult

def encode (m : MoveResult) : Value := .obj [
  ("success", .bool m.success),
  ("validation", .opt Validation.encode m.validation),
  ("from_stage", m.fromStage),
  ("to_stage", .ofOption m.toStage),
  ("requires_approval", .bool m.requiresApproval),
  ("approval_id", .opt .uuid m.approval),
  ("run", .opt RunResult.encode m.run),
  ("error", .ofOption m.error)]

/-- A move that was not even begun. -/
def refused (toStage : Option String) (error : String) : MoveResult :=
  ⟨false, none, .null, toStage, false, none, none, some error⟩

def invalid (v : Validation) (fromStage : Value) (toStage : String)
    (approval : Option Uuid) : MoveResult :=
  ⟨false, some v, fromStage, some toStage, approval.isSome || v.requiresApproval, approval, none,
    v.reason⟩

def notCarriedOut (approval : Uuid) (fromStage : Value) (toStage error : String) :
    MoveResult :=
  ⟨false, none, fromStage, some toStage, true, some approval, none, some error⟩

end MoveResult

namespace Blueprint

/-- The oldest enabled blueprint of a module. -/
def ofModule? (module : String) : Flow (Option Blueprint) := do
  let rows := (← all StoredBlueprint).filter fun b => b.module = module && b.isEnabled
  let rows := sorted (fun a b => decide (a.createdAt ≤ b.createdAt)) rows
  match rows with
  | [] => return none
  | row :: _ => return some (← valid row.definition)

def resolve (ref : BlueprintRef) (module : Value) : Flow (Option Blueprint) := do
  match ref with
  | .given b => return some b
  | .byId id => return some (← valid (← fetch StoredBlueprint id).definition)
  | .ofModule => ofModule? ((Cell.written Cell.text module).getD "")

/-- Checks a move; it never fails, since a failure of the check is a refusal. -/
def validate (ref : BlueprintRef) (r : Record) (toStage : String) (updates : Fields) :
    Flow Validation := do
  match ← Job.orFailure (resolve ref r.module) with
  | .error cause => return .refused (.failed cause)
  | .ok none => return .refused .noBlueprint
  | .ok (some b) => return b.check r toStage updates

/-- The actions of a move, and the position of the move itself among them. -/
def moveActions (t : Transition) (toStage : String) (updates : Fields) : List Action × Nat :=
  let move : Action := ⟨defaultId, none, .moveStage toStage⟩
  if updates.isEmpty then (move :: t.actions, 0)
  else (⟨defaultId, none, .updateFields updates⟩ :: move :: t.actions, 1)

def hasMoved (run : RunResult) (position : Nat) : Bool :=
  run.executed[position]?.any (·.status = .success)

def recordMove (blueprint : Option Uuid) (record : Uuid) (fromStage : Value)
    (toStage : String) (actor : Option String) (approval : Option Uuid) (run : Option Uuid) :
    Flow Unit := do
  let source ← taken (Cell.text fromStage)
  let _ ← insertIf (ρ := StageChange)
    (fun id => ⟨id, blueprint.getD ⟨0⟩, record, source, toStage, actor, approval, run⟩)
    fun _ _ => blueprint.isSome
  commit
  note (AuditEntry.actorName (.ofOption actor)) "crm.record" record.text "blueprint.stage_changed"
    (.obj [("stage", fromStage)])
    (.obj [("stage", .str toStage), ("approval_id", .opt .uuid approval)])
  announce "blueprint.stage_changed" (.ofOption actor) [
    ("record_id", .uuid record),
    ("blueprint_id", .opt .uuid blueprint),
    ("from_stage", fromStage),
    ("to_stage", .str toStage),
    ("approval_id", .opt .uuid approval)]

def applyMove (b : Blueprint) (t : Transition) (r : Record) (toStage : String) (updates : Fields)
    (actor : Option String) (v : Validation) (approval : Option Uuid) : Flow MoveResult := do
  let (actions, position) := moveActions t toStage updates
  let c ← Context.fresh r "stage_transition"
  let run ← Run.start { c with actor := .ofOption actor, source := "blueprint" } actions true
  let moved := hasMoved run position
  if moved then recordMove b.id r.id r.stage toStage actor approval run.run
  return ⟨moved, some v, r.stage, some toStage, approval.isSome, approval, some run, run.error⟩

def moveContext (b : Blueprint) (fromStage : Value) (toStage : String) (updates : Fields) :
    Fields := [
  ("action_type", .str "stage_transition"),
  ("blueprint_id", .str ((b.id.map Uuid.text).getD "None")),
  ("from_stage", fromStage),
  ("to_stage", .str toStage),
  ("field_updates", .obj updates)]

def requestMove (b : Blueprint) (t : Transition) (r : Record) (toStage : String) (updates : Fields)
    (actor : Option String) (v : Validation) : Flow MoveResult := do
  match (← wiring).approvalsOfTransitions, t.approvalProcess with
  | true, some process =>
    let a ← Approval.submit process r.id actor (b.moveContext r.stage toStage updates)
    commit
    note (AuditEntry.actorName (.ofOption actor)) "crm.record" r.id.text
      "blueprint.transition_requested"
      (.obj [("stage", r.stage)])
      (.obj [("target_stage", .str toStage), ("approval_id", .uuid a.id)])
    return ⟨true, some v, r.stage, some toStage, true, some a.id, none, none⟩
  | _, _ =>
    return ⟨false, some v, r.stage, some toStage, true, none, none,
      some "approval_engine_unavailable"⟩

def move (ref : BlueprintRef) (record : Uuid) (toStage : String) (updates : Fields)
    (actor : Option String) : Flow MoveResult := do
  match ← Record.get? record with
  | none => return .refused (some toStage) "record_not_found"
  | some r =>
    match ← resolve ref r.module with
    | none => return .invalid (.refused .noBlueprint) r.stage toStage none
    | some b =>
      let v := b.check r toStage updates
      if !v.allowed then return .invalid v r.stage toStage none
      match b.findTransition r.stage toStage with
      | none =>
        return { MoveResult.refused (some toStage) "no_transition" with validation := some v }
      | some t =>
        if t.requiresApproval then b.requestMove t r toStage updates actor v
        else b.applyMove t r toStage updates actor v none

end Blueprint

namespace Approval

def aboutMove (about : Fields) : Bool := (about.getD "action_type").same (.str "stage_transition")

def isMove (a : Approval) : Except ShapeFault Bool := do return aboutMove (← a.context.lookable)

def sourceOf (about : Fields) : Value := about.getD "from_stage"

def targetOf (about : Fields) : String := ((about.getD "to_stage").orElse (.str "")).text

def updatesOf (about : Fields) : Except ShapeFault Fields :=
  (about.getD "field_updates").objectWith "items"

def setExecuted (id : Uuid) (executed : Bool) (test : Approval → Bool) : Flow Nat := do
  let n ← updateWhere (fun a : Approval => a.id = id && test a)
    fun a => { a with executed := executed }
  commit
  return n

def carryOutMove (id : Uuid) (about : Fields) (b : Blueprint) (t : Transition) (r : Record)
    (actor : Option String) : Flow MoveResult := do
  let toStage := targetOf about
  let updates ← shaped (updatesOf about)
  let v ← readable (t.check (r.merged updates))
  if !v.allowed then return .invalid v r.stage toStage (some id)
  let claimed ← setExecuted id true (!·.executed)
  if claimed ≠ 1 then
    return .notCarriedOut id r.stage toStage "transition_already_executed"
  let m ← b.applyMove t r toStage updates actor v (some id)
  if !m.success then
    let _ ← setExecuted id false fun _ => true
  return m

/-- Refuses the move of an approval; the stage that it starts from has to be text. -/
def refuseMove (id : Uuid) (about : Fields) (error : String) : Flow MoveResult := do
  let source ← valid
    ((Schema.nullable Schema.string (sourceOf about)).under (.field "from_stage"))
  return .notCarriedOut id (.ofOption source) (targetOf about) error

/-- Carries out the move of an approval, if it is given and the record is still where it was. -/
def executeMove (id : Uuid) (actor : Option String) : Flow MoveResult := do
  match ← find? Approval id with
  | none =>
    return { MoveResult.refused none "approval_not_found" with approval := some id }
  | some a =>
    let about ← shaped a.context.mapping
    let refuse := refuseMove id about
    if a.status ≠ .approved then return ← refuse "approval_not_approved"
    if a.executed then return ← refuse "transition_already_executed"
    if !aboutMove about then return ← refuse "approval_has_no_transition"
    match ← Record.get? a.record with
    | none => refuse "record_not_found"
    | some r =>
      if !r.stage.same (sourceOf about) then
        return ← refuse "stage_changed_since_request"
      let blueprint ← orThrow ((Value.obj about).demand "blueprint_id" >>= Value.identifier)
      match ← Blueprint.resolve (.byId blueprint) r.module with
      | none => refuse "transition_no_longer_defined"
      | some b =>
        match b.findTransition r.stage (targetOf about) with
        | none => refuse "transition_no_longer_defined"
        | some t => carryOutMove id about b t r actor

end Approval

end RecordFlow
