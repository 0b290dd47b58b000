import RecordFlow.Number.Numeral
import RecordFlow.Number.Places
import RecordFlow.Value.Order

/-! # Cells

What a column of a table takes from a value. Text columns write numbers by their digits. Columns of
whole numbers take numbers of 64 bits, and text that writes such a number; what stands for no whole
number is kept as it is, unless the column is counted with. Flags take what equals 0 or 1. Null is
taken by every kind of column; whether a column needs a value is not decided here.
-/
namespace RecordFlow

inductive CellFault where
  | unfit
  | tooLarge
  deriving DecidableEq, Inhabited

namespace Cell

def fits (n : Int) : Bool := -Int.pow 2 63 ≤ n && n < Int.pow 2 63

def bounded (n : Int) : Except CellFault Int := if fits n then .ok n else .error .tooLarge

def doubleText (d : Double) : String :=
  if d.isZero then "0.0"
  else
    let cs := d.placed .general 15 false
    let (mantissa, exponent) := (cs.takeWhile (· != 'e'), cs.dropWhile (· != 'e'))
    String.ofList (mantissa ++ (if mantissa.contains '.' then [] else ['.', '0']) ++ exponent)

def text : Value → Except CellFault (Option String)
  | .null => .ok none
  | .str s => .ok (some s)
  | .bool b => .ok (some (if b then "1" else "0"))
  | .int n => (bounded n).map fun n => some (toString n)
  | .double d => .ok (some (doubleText d))
  | _ => .error .unfit

def flag : Value → Except CellFault (Option Bool)
  | .null => .ok none
  | .bool b => .ok (some b)
  | .int 0 => .ok (some false)
  | .int 1 => .ok (some true)
  | .double d =>
    if d.isZero then .ok (some false)
    else if d.truncate? = some 1 ∧ d.isWhole then .ok (some true)
    else .error .unfit
  | _ => .error .unfit

/-- A double as a column of whole numbers keeps it: as a whole number, if nothing is lost. -/
def settled (d : Double) : Value :=
  match d.truncate? with
  | some n => if d.isWhole ∧ fits n ∧ n ≠ -Int.pow 2 63 then .int n else .double d
  | none => .double d

def numeral? (s : String) : Option Value :=
  let isMargin := fun (c : Char) => c = ' ' || (9 ≤ c.toNat && c.toNat ≤ 13)
  let cs := ((s.toList.dropWhile isMargin).reverse.dropWhile isMargin).reverse
  let (negative, cs) := Number.splitSign cs
  match Number.splitDigits cs with
  | (d :: ds, []) =>
    let size := Text.ofDigits (d :: ds)
    let n : Int := if negative then -size else size
    some (if fits n then .int n else settled (.ofDecimal negative size 0))
  | _ => (Number.decimal? negative cs).map settled

/-- What a column of whole numbers keeps of a value: a whole number if it stands for one, else the
fraction or the text as it is. -/
def number : Value → Except CellFault Value
  | .null => .ok .null
  | .bool b => .ok (.int (if b then 1 else 0))
  | .int n => (bounded n).map .int
  | .double d => .ok (settled d)
  | .str s => .ok ((numeral? s).getD (.str s))
  | _ => .error .unfit

/-- What a column that is counted with takes: nothing but whole numbers. -/
def whole (v : Value) : Except CellFault (Option Int) := do
  match ← number v with
  | .null => return none
  | .int n => return some n
  | _ => throw .unfit

/-- Whether a number comes before another in a column: fractions stand between the whole numbers,
and text after all of them. -/
def isBelow (a b : Value) : Bool :=
  (Value.ordered? .lt a b).getD (a.text?.isNone && b.text?.isSome)

/-- What is in a column after a value that it takes is written; nothing if the value is null. -/
def written {α : Type} (read : Value → Except CellFault (Option α)) (v : Value) : Option α :=
  (read v).toOption.join

def stated (v : Value) : Value := (number v).toOption.getD .null

def kept {α : Type} (read : Value → Except CellFault (Option α)) (current : α) (v : Value) : α :=
  (written read v).getD current

example : doubleText (.ofDecimal false 100 0) = "100.0" := by decide
example : doubleText (.ofDecimal false 1 15) = "1.0e+15" := by decide
example : (numeral? " 1e2").map Value.text? = some none := by decide

end Cell

end RecordFlow
