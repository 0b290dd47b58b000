import RecordFlow.Condition.Basic
import RecordFlow.Schema.Fields
import RecordFlow.Text.Casing
import RecordFlow.Value.Text

/-! # Reading conditions

A condition is written as a leaf, as a group under `all` or `any`, as a list of `conditions` with
their `logic`, or as a bare list, which asks for all its parts. Reading stops at the first part that
is none of these.
-/
namespace RecordFlow.Condition
open Schema

def leafField (v : Value) : Checked String := (nonEmpty v).under (.field "field")

def leafOperator (v : Value) : Checked Operator := (oneOf Operator.table v).under (.field "op")

/-- A leaf with its path and operator under either of their names. -/
def parseLeaf (fields : Fields) : Checked Condition :=
  let field := (fields.get? "field").getD (fields.getD "path")
  let op := (fields.get? "op").getD (fields.getD "operator")
  (fun field op => .leaf field op (fields.getD "value")) <$> leafField field <*> leafOperator op

inductive Logic where
  | and
  | or

def Logic.group : Logic → List Condition → Condition
  | .and => .all
  | .or => .any

def logic? (fields : Fields) : Checked Logic :=
  let name := Text.upper ((fields.getD "logic").orElse (.str "AND")).text
  if name = "AND" then .valid .and
  else if name = "OR" then .valid .or
  else .fail (.rule (.unsupportedLogic name))

def logicOfConditions (fields : Fields) : Checked Logic :=
  match fields.get? "conditions" with
  | some (.list _) => logic? fields
  | _ => .fail (.rule (.notAList "conditions"))

mutual
def parseNode : Value → Checked Condition
  | .obj fields =>
    if Fields.has fields "all" then (parseUnder "all" fields).map .all
    else if Fields.has fields "any" then (parseUnder "any" fields).map .any
    else if Fields.has fields "conditions" then
      (logicOfConditions fields).andThen fun logic =>
        (parseUnder "conditions" fields).map logic.group
    else parseLeaf fields
  | _ => .fail (.rule .conditionNotObject)

def parseUnder (key : String) : Fields → Checked (List Condition)
  | [] => .fail (.rule (.notAList key))
  | (k, v) :: rest => if k = key then parseParts key v else parseUnder key rest

def parseParts (key : String) : Value → Checked (List Condition)
  | .list items => parseNodes items
  | _ => .fail (.rule (.notAList key))

/-- Stops at the first part that cannot be read. -/
def parseNodes : List Value → Checked (List Condition)
  | [] => .valid []
  | v :: rest =>
    match parseNode v with
    | .invalid issues => .invalid issues
    | .valid c => (parseNodes rest).map (c :: ·)
end

/-- Reads a condition; null stands for no condition. -/
def parse : Decoder (Option Condition)
  | .null => .valid none
  | .list items => (parseNodes items).map fun parts => some (.all parts)
  | v => (parseNode v).map some

end RecordFlow.Condition
