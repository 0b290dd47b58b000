import RecordFlow.Store.Access

/-! # The record store

A record is patched only at the version that the writer has seen, so a write that another one
overtook fails instead of being lost.
-/
namespace RecordFlow.Record
open RecordFlow.Flow

structure Draft where
  module : Value
  title : Value
  ownerId : Value
  stage : Value
  fields : Value
  createdBy : Value
  deriving Inhabited

/-- The row of a new record; one without a module is refused. -/
def Draft.row (d : Draft) (fields : Fields) (t : Calendar.Instant) (id : Uuid) :
    Except CellFault StoredRecord := do
  let module ← Cell.text d.module
  let title ← Cell.text d.title
  let ownerId ← Cell.text d.ownerId
  let stage ← Cell.text d.stage
  let createdBy ← Cell.text d.createdBy
  match module with
  | none => .error .unfit
  | some module => .ok {
      id := id
      module := module
      ownerId := ownerId
      stage := stage
      title := title
      isOpen := true
      data := .obj fields
      createdBy := createdBy
      version := 1
      createdAt := t }

/-- A new record as whoever asked for it sees it: with the system values that were given. -/
def Draft.seen (d : Draft) (r : Record) : Record :=
  { r with
    module := d.module
    ownerId := d.ownerId
    stage := d.stage
    title := d.title
    createdBy := d.createdBy }

def create (d : Draft) : Flow Record := do
  let fields ← shaped d.fields.mapping
  let t ← now
  let row ← insertTaken (d.row fields t) fun _ _ => true
  return d.seen (← shaped row.toRecord)

def get? (id : Uuid) : Flow (Option Record) := do
  match ← find? StoredRecord id with
  | some row => some <$> shaped row.toRecord
  | none => return none

def fetch (id : Uuid) : Flow Record := do shaped (← Flow.fetch StoredRecord id).toRecord

def patch (id : Uuid) (changes : Fields) (seen : Int) : Flow Record := do
  let row ← Flow.fetch StoredRecord id
  let current ← shaped row.toRecord
  if current.version ≠ seen then throw (.stale id seen)
  let next ← taken (row.write current.fields changes)
  let swapped ← swapIf id seen (fun row => next.getD row) next.isSome
  if !swapped then throw (.stale id seen)
  fetch id

structure ChildDraft where
  kind : String
  title : Value
  body : Value
  assignedTo : Value
  dueAt : Option Calendar.Moment
  payload : Fields
  createdBy : Value
  deriving Inhabited

def ChildDraft.child (d : ChildDraft) (record id : Uuid) : Except CellFault Child := do
  let title ← Cell.text d.title
  let body ← Cell.text d.body
  let assignedTo ← Cell.text d.assignedTo
  let createdBy ← Cell.text d.createdBy
  return {
    id := id
    record := record
    kind := d.kind
    title := title
    body := body
    assignedTo := assignedTo
    dueAt := d.dueAt.map Calendar.Moment.wall
    status := Child.openStatus
    payload := .obj d.payload
    createdBy := createdBy }

def createChild (record : Uuid) (d : ChildDraft) : Flow Child :=
  insertTaken (d.child record) fun _ _ => true

/-- Open records of an owner, or of nobody, in one module or in all. -/
def isOpenOf (owner module : Option String) (r : StoredRecord) : Bool :=
  r.isOpen && r.ownerId = owner && module.all fun m => r.module = m

def countOpen (owner module : Value) : Flow Nat := do
  let owner ← taken (Cell.text owner)
  let module ← taken (Cell.text (module.orElse .null))
  return ((← all StoredRecord).filter (isOpenOf owner module)).length

/-- The first rows of a list; a negative limit is none. -/
def limited {α : Type} (limit : Int) (rows : List α) : Flow (List α) := do
  let limit ← taken (Cell.bounded limit)
  return if limit < 0 then rows else rows.take limit.toNat

def list (module : Value) (limit : Int) : Flow (List Record) := do
  let module ← taken (Cell.text module)
  let rows := (← all StoredRecord).filter fun r => some r.module = module
  let rows := sorted (fun a b => decide (a.createdAt ≤ b.createdAt)) rows
  (← limited limit rows).mapM fun row => shaped row.toRecord

end RecordFlow.Record
