import RecordFlow.Condition.Path
import RecordFlow.Uuid

/-! # Records

A record has four system fields, which the program itself works with, and any number of other
fields. Its version counts the writes to it. This is a record as it is seen: what its system fields
hold is text or a flag once it was read from the store, but a record that was just made holds what
was given, and one with changes laid over it holds whatever the changes say.
-/
namespace RecordFlow

structure Record where
  id : Uuid
  module : Value
  ownerId : Value
  stage : Value
  fields : Fields
  version : Int
  createdBy : Value
  title : Value
  isOpen : Value
  deriving Inhabited

inductive SystemField where
  | ownerId
  | stage
  | title
  | isOpen
  deriving DecidableEq, Inhabited

namespace SystemField

def name : SystemField → String
  | .ownerId => "owner_id"
  | .stage => "stage"
  | .title => "title"
  | .isOpen => "is_open"

def ofName? (s : String) : Option SystemField :=
  if s = "owner_id" then some .ownerId
  else if s = "stage" then some .stage
  else if s = "title" then some .title
  else if s = "is_open" then some .isOpen
  else none

def names : List String := ["is_open", "owner_id", "stage", "title"]

end SystemField

namespace Record

def put (r : Record) (key : String) (value : Value) : Record :=
  match SystemField.ofName? key with
  | some .ownerId => { r with ownerId := value }
  | some .stage => { r with stage := value }
  | some .title => { r with title := value }
  | some .isOpen => { r with isOpen := value }
  | none => { r with fields := Fields.put key value r.fields }

def merged (r : Record) (changes : Fields) : Record :=
  changes.foldl (fun s change => s.put change.1 change.2) r

/-- What conditions and templates look at: the fields, and over them the system values and the
fields as a whole. -/
def context (r : Record) : Value :=
  .obj (Fields.putAll r.fields [
    ("id", .str r.id.text),
    ("module", r.module),
    ("owner_id", r.ownerId),
    ("stage", r.stage),
    ("created_by", r.createdBy),
    ("title", r.title),
    ("is_open", r.isOpen),
    ("fields", .obj r.fields)])

end Record

end RecordFlow
