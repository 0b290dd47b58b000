import RecordFlow.Action.Basic
import RecordFlow.Record.Basic
import RecordFlow.Run.Budget
import RecordFlow.Store.World

/-! # Contexts of runs

A run has a record as it last saw it, what triggered it, and a budget. A run that is triggered by an
action of another is nested in it: it has a context of its own but shares the budget.
-/
namespace RecordFlow

structure Context where
  record : Record
  trigger : String
  budget : Budget
  previous : Option Record
  actor : Value
  isDry : Bool
  source : String
  workflow : Option Uuid
  run : Option Uuid
  parent : Option Uuid
  depth : Int
  key : Option String
  pending : List Action
  deriving Inhabited

namespace Context

def workflowSource : String := "workflow"

def root (record : Record) (trigger : String) (maxActions : Int) : Context where
  record := record
  trigger := trigger
  budget := ⟨maxActions, 0⟩
  previous := none
  actor := .null
  isDry := false
  source := workflowSource
  workflow := none
  run := none
  parent := none
  depth := 0
  key := none
  pending := []

def child (c : Context) (record : Record) (trigger : String) (previous : Option Record) :
    Context where
  record := record
  trigger := trigger
  budget := c.budget
  previous := previous
  actor := c.actor
  isDry := c.isDry
  source := workflowSource
  workflow := none
  run := none
  parent := c.run
  depth := c.depth + 1
  key := none
  pending := []

end Context

structure Frame where
  world : World
  context : Context
  deriving Inhabited

/-- A part of a run. Like an operation, it leaves its frame behind when it fails. -/
abbrev Scoped := EStateM Failure Frame

instance : MonadLift Flow Scoped where
  monadLift part := fun f =>
    match part f.world with
    | .ok a w => .ok a { f with world := w }
    | .error e w => .error e { f with world := w }

namespace Scoped

def context : Scoped Context := return (← get).context

def changeContext (change : Context → Context) : Scoped Unit :=
  modify fun f => { f with context := change f.context }

/-- Runs a part in a context of its own; what it takes off the budget is taken off this one's. -/
def nested {α : Type} (inner : Context) (part : Scoped α) : Scoped α := fun f =>
  let back := fun (g : Frame) =>
    { world := g.world, context := { f.context with budget := g.context.budget } : Frame }
  match part { world := f.world, context := inner } with
  | .ok a g => .ok a (back g)
  | .error e g => .error e (back g)

def runIn {α : Type} (context : Context) (part : Scoped α) : Flow (α × Context) := fun w =>
  match part { world := w, context := context } with
  | .ok a f => .ok (a, f.context) f.world
  | .error e f => .error e f.world

/-- Catches the refusal of an action for want of budget, and no other failure. -/
def orLimit {α : Type} (part : Scoped α) : Scoped (Except LimitReached α) := fun f =>
  match part f with
  | .ok a g => .ok (.ok a) g
  | .error (.limit l) g => .ok (.error l) g
  | .error e g => .error e g

/-- Catches every failure but the refusal of an action for want of budget. -/
def orFailure {α : Type} (part : Scoped α) : Scoped (Except Failure α) := fun f =>
  match part f with
  | .ok a g => .ok (.ok a) g
  | .error (.limit l) g => .error (.limit l) g
  | .error e g => .ok (.error e) g

end Scoped

end RecordFlow
