import RecordFlow.Record.Basic
import RecordFlow.Store.Cell
import RecordFlow.Value.Form
import RecordFlow.Value.Shape

/-! # Stored records and their children

A write keeps every field that it does not name and counts up the version. System fields hold text,
or a flag, and take what fits such a column.
-/
namespace RecordFlow

structure StoredRecord where
  id : Uuid
  module : String
  ownerId : Option String
  stage : Option String
  title : Option String
  isOpen : Bool
  data : Value
  createdBy : Option String
  version : Int
  createdAt : Calendar.Instant
  deriving Inhabited

namespace StoredRecord

/-- The record that a row holds, if its data stands for an object. -/
def toRecord (r : StoredRecord) : Except ShapeFault Record := do
  let fields ← r.data.mapping
  return {
    id := r.id
    module := .str r.module
    ownerId := .ofOption r.ownerId
    stage := .ofOption r.stage
    fields := fields
    version := r.version
    createdBy := .ofOption r.createdBy
    title := .ofOption r.title
    isOpen := .bool r.isOpen }

def changed {α : Type} (changes : Fields) (field : SystemField)
    (read : Value → Except CellFault α) (current : α) : Except CellFault α :=
  match Fields.get? changes field.name with
  | some v => read v
  | none => .ok current

/-- The row after changes to its record, whose other fields are given; none if they would take the
flag away. -/
def write (r : StoredRecord) (fields changes : Fields) : Except CellFault (Option StoredRecord) := do
  let isOpen ← changed changes .isOpen Cell.flag (some r.isOpen)
  let title ← changed changes .title Cell.text r.title
  let ownerId ← changed changes .ownerId Cell.text r.ownerId
  let stage ← changed changes .stage Cell.text r.stage
  let others := changes.filter fun c => (SystemField.ofName? c.1).isNone
  return isOpen.map fun isOpen => { r with
    ownerId := ownerId
    stage := stage
    title := title
    isOpen := isOpen
    data := .obj (Fields.putAll fields others) }

def encode (r : StoredRecord) : Value := .present [
  ("id", .uuid r.id),
  ("module", .str r.module),
  ("title", .ofOption r.title),
  ("owner_id", .ofOption r.ownerId),
  ("stage", .ofOption r.stage),
  ("is_open", .bool r.isOpen),
  ("data", r.data),
  ("created_by", .ofOption r.createdBy),
  ("row_version", .int r.version)]

end StoredRecord

structure Child where
  id : Uuid
  record : Uuid
  kind : String
  title : Option String
  body : Option String
  assignedTo : Option String
  dueAt : Option Calendar.Instant
  status : String
  payload : Value
  createdBy : Option String
  deriving Inhabited

def Child.openStatus : String := "open"

def Child.encode (c : Child) : Value := .present [
  ("id", .uuid c.id),
  ("record_id", .uuid c.record),
  ("kind", .str c.kind),
  ("title", .ofOption c.title),
  ("body", .ofOption c.body),
  ("assigned_to", .ofOption c.assignedTo),
  ("due_at", .opt .instant c.dueAt),
  ("status", .str c.status),
  ("payload_json", c.payload),
  ("created_by", .ofOption c.createdBy)]

end RecordFlow
