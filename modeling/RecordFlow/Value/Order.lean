import RecordFlow.Number.Double
import RecordFlow.Value.Basic

/-! # Equality and order of values

Booleans, whole numbers and doubles are compared with one another by exact value. Lists are equal
item by item and ordered by their first difference, objects are equal key by key, texts are
ordered by code point. Values of different kinds, nulls and objects have no order.
-/
namespace RecordFlow.Value

def place? : Value → Option Extended
  | .bool b => some (.ofInt (if b then 1 else 0))
  | .int n => some (.ofInt n)
  | .double d => some (.ofDouble d)
  | _ => none

mutual
def same : Value → Value → Bool
  | .null, w => w.isNull
  | .str s, w => match w with
    | .str t => s == t
    | _ => false
  | .list xs, w => match w with
    | .list ys => sameItems xs ys
    | _ => false
  | .obj xs, w => match w with
    | .obj ys => xs.length == ys.length && sameFields xs ys
    | _ => false
  | .bool b, w => match w.place? with
    | some y => (Extended.ofInt (if b then 1 else 0)).eq y
    | none => false
  | .int n, w => match w.place? with
    | some y => (Extended.ofInt n).eq y
    | none => false
  | .double d, w => match w.place? with
    | some y => (Extended.ofDouble d).eq y
    | none => false

def sameItems : List Value → List Value → Bool
  | [], [] => true
  | x :: xs, y :: ys => same x y && sameItems xs ys
  | _, _ => false

/-- Every key of the first has an equal value in the second. -/
def sameFields : Fields → Fields → Bool
  | [], _ => true
  | (k, x) :: xs, ys =>
    (match ys.lookup k with
      | some y => same x y
      | none => false) && sameFields xs ys
end

inductive Comparison where
  | lt
  | le
  | gt
  | ge
  deriving DecidableEq, Inhabited

namespace Comparison

def onSizes (op : Comparison) (m n : Nat) : Bool :=
  match op with
  | .lt => m < n
  | .le => m ≤ n
  | .gt => n < m
  | .ge => n ≤ m

def onText (op : Comparison) (s t : String) : Bool :=
  match op with
  | .lt => s < t
  | .le => s < t || s == t
  | .gt => t < s
  | .ge => t < s || s == t

def onPlaces (op : Comparison) (x y : Extended) : Bool :=
  match op with
  | .lt => x.lt y
  | .le => x.lt y || x.eq y
  | .gt => y.lt x
  | .ge => y.lt x || x.eq y

end Comparison

mutual
def ordered? (op : Comparison) : Value → Value → Option Bool
  | .str s, w => match w with
    | .str t => some (op.onText s t)
    | _ => none
  | .list xs, w => match w with
    | .list ys => orderedItems? op xs ys
    | _ => none
  | .bool b, w => w.place?.map (op.onPlaces (.ofInt (if b then 1 else 0)))
  | .int n, w => w.place?.map (op.onPlaces (.ofInt n))
  | .double d, w => w.place?.map (op.onPlaces (.ofDouble d))
  | .null, _ => none
  | .obj _, _ => none

/-- The first unequal pair decides; without one the lengths do. -/
def orderedItems? (op : Comparison) : List Value → List Value → Option Bool
  | [], ys => some (op.onSizes 0 ys.length)
  | x :: xs, [] => some (op.onSizes (x :: xs).length 0)
  | x :: xs, y :: ys => if same x y then orderedItems? op xs ys else ordered? op x y
end

end RecordFlow.Value
