import RecordFlow.Schema.Scalar

/-! # Decoding lists and objects

Issues of an item carry its position, issues of a field its name. Fields that no definition names
are ignored.
-/
namespace RecordFlow.Schema
variable {α : Type}

def itemsFrom (decode : Decoder α) : (position : Nat) → List Value → Checked (List α)
  | _, [] => .valid []
  | position, v :: rest =>
    List.cons <$> (decode v).under (.item position) <*> itemsFrom decode (position + 1) rest

def listOf (decode : Decoder α) : Decoder (List α)
  | .list items => itemsFrom decode 0 items
  | _ => .fail .list

/-- A list of at least one item. The length is checked before the items. -/
def nonEmptyListOf (decode : Decoder α) : Decoder (List α)
  | .list [] => .fail .tooShort
  | v => listOf decode v

def dict : Decoder Fields
  | .obj fields => .valid fields
  | _ => .fail .dict

def nonEmptyDict : Decoder Fields := fun v =>
  (dict v).ensure (!·.isEmpty) fun _ => .tooShort

def entriesOf (decode : Decoder α) : Fields → Checked (List (String × α))
  | [] => .valid []
  | (k, v) :: rest =>
    (fun a more => (k, a) :: more) <$> (decode v).under (.field k) <*> entriesOf decode rest

def dictOf (decode : Decoder α) : Decoder (List (String × α))
  | .obj fields => entriesOf decode fields
  | _ => .fail .dict

def required (fields : Fields) (key : String) (decode : Decoder α) : Checked α :=
  match fields.get? key with
  | some v => (decode v).under (.field key)
  | none => Checked.under (.field key) (.fail .missing)

def optional (fields : Fields) (key : String) (fallback : α) (decode : Decoder α) : Checked α :=
  match fields.get? key with
  | some v => (decode v).under (.field key)
  | none => .valid fallback

def object (decode : Fields → Checked α) : Decoder α
  | .obj fields => decode fields
  | _ => .fail .model

end RecordFlow.Schema
