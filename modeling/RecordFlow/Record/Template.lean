import RecordFlow.Record.Basic
import RecordFlow.Text.Part
import RecordFlow.Text.Word
import RecordFlow.Value.Text

/-! # Templates

A template is text with placeholders: a path of word characters and points between double braces,
with blanks around it if one likes. A placeholder stands for the value at its path; what the value
itself says is not read again.
-/
namespace RecordFlow.Template

def isPathChar (c : Char) : Bool := Text.isWord c || c == '.'

/-- The path of the placeholder that starts a text, and the length of the whole placeholder. -/
def placeholder? : List Char → Option (String × Nat)
  | '\x7b' :: '\x7b' :: rest =>
    let before := rest.takeWhile Text.isBlank
    let rest := rest.drop before.length
    let path := rest.takeWhile isPathChar
    let rest := rest.drop path.length
    let after := rest.takeWhile Text.isBlank
    match path, rest.drop after.length with
    | _ :: _, '\x7d' :: '\x7d' :: _ =>
      some (String.ofList path, before.length + path.length + after.length + 4)
    | _, _ => none
  | _ => none

def inserted (v : Value) : String := if v.isNull then "" else v.text

/-- Replaces the placeholders from here on; `skip` characters belong to one already replaced. -/
def renderFrom (context : Value) : (skip : Nat) → List Char → Except BadNumeral (List Char)
  | _, [] => .ok []
  | skip + 1, _ :: rest => renderFrom context skip rest
  | 0, c :: rest =>
    match placeholder? (c :: rest) with
    | some (path, length) => do
      let v ← context.fieldValue path
      return (inserted v).toList ++ (← renderFrom context (length - 1) rest)
    | none => return c :: (← renderFrom context 0 rest)

def render (context : Value) (template : String) : Except BadNumeral String :=
  String.ofList <$> renderFrom context 0 template.toList

def render? (context : Value) : Option String → Except BadNumeral (Option String)
  | none => .ok none
  | some template => some <$> render context template

end RecordFlow.Template

namespace RecordFlow.Record

/-- The user that a reference names: the owner, the creator, or the one that a template writes. -/
def resolveUser (r : Record) (reference : Option String) : Except BadNumeral Value :=
  match reference with
  | none => .ok r.ownerId
  | some reference =>
    if reference = "owner" then .ok r.ownerId
    else if reference = "creator" then .ok r.createdBy
    else do
      let user ← Template.render r.context reference
      return if user.isEmpty then .null else .str user

end RecordFlow.Record
