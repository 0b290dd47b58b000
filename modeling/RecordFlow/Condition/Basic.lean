import RecordFlow.Schema.Issue
import RecordFlow.Value.Basic

/-! # Conditions

A condition is a tree whose leaves compare the value at a path with a target, and whose inner nodes
ask for all or for any of their parts.
-/
namespace RecordFlow

inductive Operator where
  | eq
  | ne
  | contains
  | notContains
  | startsWith
  | endsWith
  | isIn
  | notIn
  | gt
  | gte
  | lt
  | lte
  | isEmpty
  | notEmpty
  | changed
  | changedTo
  | changedFrom
  deriving DecidableEq, Inhabited

namespace Operator

def table : List (String × Operator) := [
  ("eq", .eq), ("ne", .ne), ("contains", .contains), ("not_contains", .notContains),
  ("starts_with", .startsWith), ("ends_with", .endsWith), ("in", .isIn), ("not_in", .notIn),
  ("gt", .gt), ("gte", .gte), ("lt", .lt), ("lte", .lte), ("is_empty", .isEmpty),
  ("not_empty", .notEmpty), ("changed", .changed), ("changed_to", .changedTo),
  ("changed_from", .changedFrom)]

def name (op : Operator) : String := Schema.nameIn table op

theorem lookup_name (op : Operator) : table.lookup op.name = some op := by
  cases op <;> decide

end Operator

inductive Condition where
  | leaf (field : String) (op : Operator) (target : Value)
  | all (parts : List Condition)
  | any (parts : List Condition)
  deriving Inhabited

namespace Condition

mutual
def encode : Condition → Value
  | .leaf field op target =>
    .obj [("field", .str field), ("op", .str op.name), ("value", target)]
  | .all parts => .obj [("all", .list (encodeAll parts))]
  | .any parts => .obj [("any", .list (encodeAll parts))]

def encodeAll : List Condition → List Value
  | [] => []
  | c :: rest => encode c :: encodeAll rest
end

mutual
def paths : Condition → List String
  | .leaf field _ _ => [field]
  | .all parts => pathsAll parts
  | .any parts => pathsAll parts

def pathsAll : List Condition → List String
  | [] => []
  | c :: rest => paths c ++ pathsAll rest
end

end Condition

def firstOccurrences : List String → List String
  | [] => []
  | s :: rest => s :: (firstOccurrences rest).filter (· ≠ s)

def Condition.referenced (c : Condition) : List String := firstOccurrences c.paths

def Condition.encode? : Option Condition → Value
  | some c => c.encode
  | none => .null

end RecordFlow
