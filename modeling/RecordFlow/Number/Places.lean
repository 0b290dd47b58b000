import RecordFlow.Number.Shortest

/-! # Decimals of a fixed length

A number with a given count of decimal places, positional or with an exponent, rounded to the
nearest such decimal; a tie goes to the even neighbour. The arithmetic is exact, so no place is too
far behind the point.
-/
namespace RecordFlow.Double

/-- How a number is laid out. The general form counts all digits, takes the exponent where the
number is very small or has more digits than asked for, and drops zeros at the end. -/
inductive Form where
  | positional
  | exponential
  | general
  deriving DecidableEq, Inhabited

def nearestMultiple (num den : Nat) (power : Int) : Nat :=
  if 0 ≤ power then roundQuotient num (den * Nat.pow 10 power.toNat)
  else roundQuotient (num * Nat.pow 10 (-power).toNat) den

/-- A coefficient of `places + 1` digits for `num / den`, and the power of ten of its first
digit. -/
def significant (num den places : Nat) : Nat × Int :=
  if num = 0 then (0, 0)
  else
    let top := leadingPower num den
    let n := nearestMultiple num den (top - places)
    if n = Nat.pow 10 (places + 1) then (Nat.pow 10 places, top + 1) else (n, top)

/-- The digits of a coefficient with a point before the last `places` of them. -/
def pointed (n places : Nat) : List Char × List Char :=
  let digits := Nat.toDigits 10 n
  let digits := List.replicate (places + 1 - digits.length) '0' ++ digits
  digits.splitAt (digits.length - places)

def dropZeros (cs : List Char) : List Char := (cs.reverse.dropWhile (· == '0')).reverse

/-- Joins what stands before and behind the point, which is left out if nothing follows it unless
it is wanted in any case. -/
def joined (pointWanted : Bool) (parts : List Char × List Char) : List Char :=
  if parts.2.isEmpty && !pointWanted then parts.1 else parts.1 ++ '.' :: parts.2

/-- The text of the size of a finite number. `full` keeps the point and the zeros at the end. -/
def sizeText (form : Form) (precision : Nat) (full : Bool) (num den : Nat) : List Char :=
  match form with
  | .positional => joined full (pointed (nearestMultiple num den (-precision)) precision)
  | .exponential =>
    let (n, top) := significant num den precision
    joined full (pointed n precision) ++ (layout.exponent top).toList
  | .general =>
    let digits := max precision 1
    let (n, top) := significant num den (digits - 1)
    let kept := fun (parts : List Char × List Char) =>
      joined full (if full then parts else (parts.1, dropZeros parts.2))
    if layout.leastPositional ≤ top ∧ top < digits then
      let places := ((digits : Int) - 1 - top).toNat
      kept (pointed (nearestMultiple num den (-places)) places)
    else kept (pointed n (digits - 1)) ++ (layout.exponent top).toList

def placed (form : Form) (precision : Nat) (full : Bool) : Double → List Char
  | .nan => layout.notANumber.toList
  | .infinite negative => (if negative then ['-'] else []) ++ layout.infinity.toList
  | .finite negative m e =>
    let (num, den) := ratio (.finite negative m e)
    (if negative then ['-'] else []) ++ sizeText form precision full num den

example : placed .positional 0 false (nearest false 5 2) = ['2'] := by decide
example : placed .exponential 1 false (nearest false 100 1) = "1.0e+02".toList := by decide
example : placed .general 6 false (nearest false 1 4) = "0.25".toList := by decide

end RecordFlow.Double
