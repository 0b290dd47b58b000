import RecordFlow.Calendar.Reading
import RecordFlow.Condition.Basic
import RecordFlow.Condition.Parse
import RecordFlow.Condition.Path
import RecordFlow.Number.Numeral
import RecordFlow.Text.Part
import RecordFlow.Value.Order

/-! # Evaluating conditions

A condition holds of a record, and of what the record was before if that is known. Evaluation is
total: a leaf whose path cannot be followed is false, unless it asks for emptiness.
-/

/-! ## Comparable form

Before two values are compared, text that writes a number becomes that number, and text that writes
a day becomes its calendar form. A value that is missing counts as null.
-/
namespace RecordFlow.Value
open Calendar

def comparableText (s : String) : Value :=
  match Number.read? s with
  | some d => .double d
  | none =>
    match Date.read? s with
    | some d => .str d.text
    | none => .str s

def comparable : Value → Value
  | .str s => comparableText s
  | v => v

def matching (v w : Value) : Bool := v.comparable.same w.comparable

/-- A test of order on comparable forms; without an order it fails. -/
def compares (op : Comparison) (v w : Value) : Bool :=
  (ordered? op v.comparable w.comparable).getD false

end RecordFlow.Value

namespace RecordFlow

namespace Value

/-- Null, blank text, and empty lists and objects. -/
def isBlank : Value → Bool
  | .null => true
  | .str s => Text.allBlank s
  | .list items => items.isEmpty
  | .obj fields => fields.isEmpty
  | _ => false

/-- Whether text or a list contains a target; other values have no parts. -/
def containing? (v target : Value) : Option Bool :=
  match v, target with
  | .str s, .str t => some (Text.occursIn (Text.lowerChars t.toList) (Text.lowerChars s.toList))
  | .list items, target => some (items.any (·.same target))
  | _, _ => none

def startsWith (v target : Value) : Bool :=
  match v, target with
  | .str s, .str t => (Text.lowerChars t.toList).isPrefixOf (Text.lowerChars s.toList)
  | _, _ => false

def endsWith (v target : Value) : Bool :=
  match v, target with
  | .str s, .str t => (Text.lowerChars t.toList).isSuffixOf (Text.lowerChars s.toList)
  | _, _ => false

def among? (v target : Value) : Option Bool :=
  match target with
  | .list items => some (items.any fun item => v.matching item)
  | _ => none

end Value

namespace Lookup

def orNull : Lookup → Value
  | .found v => v
  | _ => .null

def isFound : Lookup → Bool
  | .found _ => true
  | _ => false

end Lookup

namespace Operator
open Value (Comparison)

def comparison? : Operator → Option Comparison
  | .gt => some .gt
  | .gte => some .ge
  | .lt => some .lt
  | .lte => some .le
  | _ => none

def holdsOfChange (op : Operator) (target : Value) (current before : Lookup) : Bool :=
  if before.orNull.matching current.orNull then false
  else match op with
    | .changed => true
    | .changedTo => current.isFound && current.orNull.matching target
    | .changedFrom => before.isFound && before.orNull.matching target
    | _ => false

def holdsOfValue (op : Operator) (target current : Value) : Bool :=
  match op with
  | .eq => current.matching target
  | .ne => !current.matching target
  | .isIn => (current.among? target).getD false
  | .notIn => ((current.among? target).map (!·)).getD false
  | .contains => (current.containing? target).getD false
  | .notContains => ((current.containing? target).map (!·)).getD false
  | .startsWith => current.startsWith target
  | .endsWith => current.endsWith target
  | op => match op.comparison? with
    | some test => current.compares test target
    | none => false

/-- A leaf, given what its path leads to now and, if that is known, before. -/
def holds (op : Operator) (target : Value) (current : Lookup) (before : Option Lookup) : Bool :=
  match current with
  | .unreadable _ => op = .isEmpty
  | current =>
    match op with
    | .isEmpty => current.orNull.isBlank
    | .notEmpty => !current.orNull.isBlank
    | .changed | .changedTo | .changedFrom =>
      match before with
      | none => false
      | some (.unreadable _) => false
      | some before => op.holdsOfChange target current before
    | op => match current with
      | .found v => op.holdsOfValue target v
      | _ => false

end Operator

namespace Condition

mutual
def holds (record : Value) (previous : Option Value) : Condition → Bool
  | .leaf field op target =>
    op.holds target (record.resolve field) (previous.map (·.resolve field))
  | .all parts => holdsAll record previous parts
  | .any parts => holdsAny record previous parts

def holdsAll (record : Value) (previous : Option Value) : List Condition → Bool
  | [] => true
  | c :: rest => holds record previous c && holdsAll record previous rest

def holdsAny (record : Value) (previous : Option Value) : List Condition → Bool
  | [] => false
  | c :: rest => holds record previous c || holdsAny record previous rest
end

def holds? (record : Value) (previous : Option Value) : Option Condition → Bool
  | none => true
  | some c => c.holds record previous

/-- A condition in written form; one that cannot be read never holds. -/
def writtenHolds (written : Value) (record : Value) (previous : Option Value) : Bool :=
  match parse written with
  | .valid c => holds? record previous c
  | .invalid _ => false

end Condition

end RecordFlow
