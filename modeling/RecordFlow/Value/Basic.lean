import RecordFlow.Number.Double

/-! # Values

The data that records, conditions and actions hold: null, booleans, whole numbers of any size,
doubles, text, lists, and objects whose keys keep the order in which they were first written.
-/
namespace RecordFlow

inductive Value where
  | null
  | bool (b : Bool)
  | int (n : Int)
  | double (d : Double)
  | str (s : String)
  | list (items : List Value)
  | obj (fields : List (String × Value))
  deriving Inhabited

/-- An object's content: a key occurs once, at the place of its first write. -/
abbrev Fields := List (String × Value)

namespace Fields

/-- Writes a key: in place if it is there, at the end otherwise. -/
def put (key : String) (value : Value) : Fields → Fields
  | [] => [(key, value)]
  | (k, v) :: rest => if k = key then (k, value) :: rest else (k, v) :: put key value rest

def get? (fields : Fields) (key : String) : Option Value := fields.lookup key

def has (fields : Fields) (key : String) : Bool := (get? fields key).isSome

def keys (fields : Fields) : List String := fields.map Prod.fst

def putAll (fields changes : Fields) : Fields :=
  changes.foldl (fun acc change => put change.1 change.2 acc) fields

def getD (fields : Fields) (key : String) : Value := (get? fields key).getD .null

theorem get?_put_self (key : String) (value : Value) (fields : Fields) :
    get? (put key value fields) key = some value := by
  induction fields with
  | nil => simp [put, get?]
  | cons entry rest ih =>
    obtain ⟨k, v⟩ := entry
    by_cases h : k = key
    · simp [put, get?, h]
    · have h' : (key == k) = false := by simpa using fun e => h e.symm
      simpa [put, get?, h, List.lookup_cons, h'] using ih

theorem get?_put_of_ne {key other : String} (value : Value) (fields : Fields) (h : other ≠ key) :
    get? (put key value fields) other = get? fields other := by
  induction fields with
  | nil =>
    have h' : (other == key) = false := by simpa using h
    simp [put, get?, List.lookup_cons, h']
  | cons entry rest ih =>
    obtain ⟨k, v⟩ := entry
    by_cases hk : k = key
    · subst hk
      have h' : (other == k) = false := by simpa using h
      simp [put, get?, List.lookup_cons, h']
    · by_cases ho : other = k
      · simp [put, get?, hk, ho]
      · have h' : (other == k) = false := by simpa using ho
        simpa [put, get?, hk, List.lookup_cons, h'] using ih

end Fields

namespace Value

def ofOption : Option String → Value
  | some s => .str s
  | none => .null

def nat (n : Nat) : Value := .int n

def strings (xs : List String) : Value := .list (xs.map .str)

def isNull : Value → Bool
  | .null => true
  | _ => false

def text? : Value → Option String
  | .str s => some s
  | _ => none

def int? : Value → Option Int
  | .int n => some n
  | _ => none

def fields : Value → Fields
  | .obj fields => fields
  | _ => []

/-- A value that does not count as given: null, false, zero, and what is empty. -/
def isFalsy : Value → Bool
  | .null => true
  | .bool b => !b
  | .int n => n == 0
  | .double d => d.isZero
  | .str s => s.isEmpty
  | .list items => items.isEmpty
  | .obj fields => fields.isEmpty

def orElse (v fallback : Value) : Value := if v.isFalsy then fallback else v

mutual
def isFinite : Value → Bool
  | .double d => d.isFinite
  | .list items => allFinite items
  | .obj fields => fieldsFinite fields
  | _ => true

def allFinite : List Value → Bool
  | [] => true
  | v :: rest => isFinite v && allFinite rest

def fieldsFinite : Fields → Bool
  | [] => true
  | (_, v) :: rest => isFinite v && fieldsFinite rest
end

end Value

end RecordFlow
