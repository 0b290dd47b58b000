import RecordFlow.Event.Envelope
import RecordFlow.Store.World

/-! # Access to the tables

Rows are looked up, inserted and changed in the tables as they are. An inserted row gets the next
number of its table, also if it is refused afterwards.
-/
namespace RecordFlow.Flow
variable {ρ : Type} [Stored ρ]

def all (ρ : Type) [Stored ρ] : Flow (List ρ) := return Stored.rows (← get).tables

def find? (ρ : Type) [Stored ρ] (id : Uuid) : Flow (Option ρ) := do
  return (← all ρ).find? fun r => Stored.id r = id

def fetch (ρ : Type) [Stored ρ] (id : Uuid) : Flow ρ := do
  match ← find? ρ id with
  | some r => return r
  | none => throw (.notFound (Stored.name ρ) id)

def setAll (rows : List ρ) : Flow Unit :=
  modify fun w => { w with tables := Stored.setRows rows w.tables }

/-- A row whose whole numbers all have a place in their columns. -/
def sized (row : ρ) : Except CellFault ρ :=
  if (Stored.wholes row).all Cell.fits then .ok row else .error .tooLarge

/-- Inserts a row that its columns may not take or that may break a constraint. -/
def insertTaken (build : Uuid → Except CellFault ρ) (fits : List ρ → ρ → Bool) : Flow ρ := do
  let n := (← get).nextNumber (Stored.name ρ)
  modify fun w => w.useNumber (Stored.name ρ)
  let row ← taken (build ((Stored.name ρ).rowId n) >>= sized)
  let rows ← all ρ
  if fits rows row then
    setAll (rows ++ [row])
    return row
  else throw .constraint

def insertIf (build : Uuid → ρ) (fits : List ρ → ρ → Bool) : Flow ρ :=
  insertTaken (fun id => .ok (build id)) fits

def insert (build : Uuid → ρ) : Flow ρ := insertIf build fun _ _ => true

def updateWhere (test : ρ → Bool) (change : ρ → ρ) : Flow Nat := do
  let rows ← all ρ
  setAll (rows.map fun r => if test r then change r else r)
  return (rows.filter test).length

def update (id : Uuid) (change : ρ → ρ) : Flow Unit := do
  let _ ← updateWhere (fun r => Stored.id r = id) change

def store (row : ρ) : Flow Unit := do
  let row ← taken (sized row)
  update (Stored.id row) fun _ => row

end RecordFlow.Flow

namespace RecordFlow

class Versioned (ρ : Type) extends Stored ρ where
  version : ρ → Int
  setVersion : Int → ρ → ρ

instance : Versioned StoredRecord := ⟨(·.version), fun v r => { r with version := v }⟩
instance : Versioned AssignmentRule := ⟨(·.version), fun v r => { r with version := v }⟩
instance : Versioned Approval := ⟨(·.version), fun v r => { r with version := v }⟩

namespace Flow

/-- Another writer gets in first: every row of the table gets a new version. -/
def letRivalWrite (ρ : Type) [Versioned ρ] : Flow Unit := do
  let rivals := (← get).rivalWrites
  if rivals ≠ 0 then
    modify fun w => { w with rivalWrites := rivals - 1 }
    setAll ((← all ρ).map fun r => Versioned.setVersion (Versioned.version r + 1) r)

/-- Runs a part while another writer gets in first before so many of its writes. -/
def amongRivals {α : Type} (writes : Nat) (part : Flow α) : Flow α := do
  modify fun w => { w with rivalWrites := writes }
  try part finally
    modify fun w => { w with rivalWrites := 0 }

/-- Changes a row if it still has the version that the writer has seen, and counts the version up.
Tells whether it did. Only where there is such a row, a change that does not fit breaks a
constraint. -/
def swapIf {ρ : Type} [Versioned ρ] (id : Uuid) (seen : Int) (change : ρ → ρ) (fits : Bool) :
    Flow Bool := do
  letRivalWrite ρ
  let next ← taken (Cell.bounded (seen + 1))
  let isSeen (r : ρ) : Bool := Stored.id r = id && Versioned.version r = seen
  if !fits && (← all ρ).any isSeen then throw .constraint
  let n ← updateWhere isSeen fun r => Versioned.setVersion next (change r)
  return n = 1

/-- Changes a row in the same way where the change always fits. -/
def swap {ρ : Type} [Versioned ρ] (id : Uuid) (seen : Int) (change : ρ → ρ) : Flow Bool :=
  swapIf id seen change true

def announce (eventType : String) (actor : Value) (payload : Fields) : Flow Unit :=
  modify fun w =>
    let envelope := Event.complete w.ambient [
      ("event_type", .str eventType),
      ("actor_user_id", actor),
      ("version", .int 1),
      ("payload", .obj payload)]
    { w with journal := { w.journal with events := w.journal.events ++ [envelope] } }

end Flow

end RecordFlow
