import RecordFlow.Text.Part
import RecordFlow.Value.Text

/-! # Values taken for objects and lists

Data that anybody may have written is used as an object or a list where one is needed. Text has its
characters as items and an object its keys. A list of pairs stands for an object.
-/
namespace RecordFlow

inductive ShapeFault where
  | noPart (kind part : String)
  | noKeys (kind : String)
  | noItems (kind : String)
  | noSize (kind : String)
  | noMembers (kind : String)
  | notPair (position : Nat)
  | pairSize (position size : Nat)
  | noName (kind : String)
  deriving DecidableEq, Inhabited

def ShapeFault.message : ShapeFault → String
  | .noPart kind part => s!"'{kind}' object has no attribute '{part}'"
  | .noKeys kind =>
    if kind = "str" then "string indices must be integers, not 'str'"
    else if kind = "list" then "list indices must be integers or slices, not str"
    else s!"'{kind}' object is not subscriptable"
  | .noItems kind => s!"'{kind}' object is not iterable"
  | .noSize kind => s!"object of type '{kind}' has no len()"
  | .noMembers kind => s!"argument of type '{kind}' is not iterable"
  | .notPair position =>
    s!"cannot convert dictionary update sequence element #{position} to a sequence"
  | .pairSize position size =>
    s!"dictionary update sequence element #{position} has length {size}; 2 is required"
  | .noName kind => s!"unhashable type: '{kind}'"

namespace Value

def items? : Value → Option (List Value)
  | .list items => some items
  | .str s => some (s.toList.map fun c => .str c.toString)
  | .obj fields => some (fields.map fun f => .str f.1)
  | _ => none

/-- The items of a value; one that does not count as given has none. -/
def items (v : Value) : Except ShapeFault (List Value) :=
  if v.isFalsy then .ok []
  else match v.items? with
    | some items => .ok items
    | none => .error (.noItems v.kindName)

def size (v : Value) : Except ShapeFault Nat :=
  if v.isFalsy then .ok 0
  else match v.items? with
    | some items => .ok items.length
    | none => .error (.noSize v.kindName)

/-- The key that a value is as it is stored; lists and objects are none. -/
def keyName : Value → Except ShapeFault String
  | .str s => .ok s
  | .null => .ok "null"
  | .bool b => .ok (if b then "true" else "false")
  | .int n => .ok (toString n)
  | .double d => .ok d.text
  | v => .error (.noName v.kindName)

def entries (position : Nat) : List Value → Except ShapeFault Fields
  | [] => .ok []
  | v :: rest =>
    match v.items? with
    | some [key, value] => do
      let name ← key.keyName
      return (name, value) :: (← entries (position + 1) rest)
    | none => .error (.notPair position)
    | some items => .error (.pairSize position items.length)

/-- The object that a value stands for; one that does not count as given stands for an empty one. -/
def mapping (v : Value) : Except ShapeFault Fields :=
  match v with
  | .obj fields => .ok fields
  | v => do return Fields.putAll [] (← entries 0 (← v.items))

def objectWith (v : Value) (part : String) : Except ShapeFault Fields :=
  match v with
  | .obj fields => .ok fields
  | v => if v.isFalsy then .ok [] else .error (.noPart v.kindName part)

def lookable (v : Value) : Except ShapeFault Fields := v.objectWith "get"

def keyed (v : Value) : Except ShapeFault Fields :=
  match v with
  | .obj fields => .ok fields
  | v => if v.isFalsy then .ok [] else .error (.noKeys v.kindName)

/-- Whether a text is among the items, or a part of a text. -/
def names (v : Value) (s : String) : Except ShapeFault Bool :=
  if v.isFalsy then .ok false
  else match v, v.items? with
    | .str t, _ => .ok (Text.occursIn s.toList t.toList)
    | _, some items => .ok (items.any fun item => item.text? = some s)
    | _, none => .error (.noMembers v.kindName)

end Value

end RecordFlow
