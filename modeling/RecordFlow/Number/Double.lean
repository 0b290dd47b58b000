/-! # Double-precision numbers

A number of the binary64 format by its meaning: a sign, a whole mantissa and a power of two.
Rounding to the nearest such number is exact arithmetic on natural numbers.
-/
namespace RecordFlow

/-- `finite negative m e` is `m · 2 ^ e` with its sign; zero has a sign too. -/
inductive Double where
  | nan
  | infinite (negative : Bool)
  | finite (negative : Bool) (mantissa : Nat) (exponent : Int)
  deriving DecidableEq, Inhabited

namespace Double

/-- Numbers below this power of two lose digits instead of range. -/
def leastExponent : Int := -1074

def greatestExponent : Int := 971

def mantissaBound : Nat := Nat.pow 2 53

def zero (negative : Bool) : Double := .finite negative 0 leastExponent

/-- The whole number nearest to a quotient; a tie goes to the even neighbour. -/
def roundQuotient (num den : Nat) : Nat :=
  let q := num / den
  let twice := 2 * (num % den)
  if twice < den then q
  else if den < twice then q + 1
  else if q % 2 = 0 then q else q + 1

def scaled (num den : Nat) (e : Int) : Nat × Nat :=
  if 0 ≤ e then (num, den * Nat.pow 2 e.toNat) else (num * Nat.pow 2 (-e).toNat, den)

/-- The least power of two that leaves a mantissa within bounds. -/
def exponentFor (num den : Nat) : Int :=
  let guess : Int := (Nat.log2 num : Int) - (Nat.log2 den : Int) - 53
  let q := scaled num den guess
  max (if q.1 / q.2 < mantissaBound then guess else guess + 1) leastExponent

/-- The double nearest to `num / den`; what lies beyond the range is infinite. -/
def nearest (negative : Bool) (num den : Nat) : Double :=
  if num = 0 then zero negative else
    let e := exponentFor num den
    let q := scaled num den e
    let m := roundQuotient q.1 q.2
    let (m, e) := if m = mantissaBound then (mantissaBound / 2, e + 1) else (m, e)
    if greatestExponent < e then .infinite negative else .finite negative m e

def digitCount (n : Nat) : Nat := (Nat.toDigits 10 n).length

/-- The double nearest to `coefficient · 10 ^ power`. Powers far out of range are decided
before any large number is formed. -/
def ofDecimal (negative : Bool) (coefficient : Nat) (power : Int) : Double :=
  if coefficient = 0 then zero negative
  else
    let size := (digitCount coefficient : Int) + power
    if 400 < size then .infinite negative
    else if size < -400 then zero negative
    else if 0 ≤ power then nearest negative (coefficient * Nat.pow 10 power.toNat) 1
    else nearest negative coefficient (Nat.pow 10 (-power).toNat)

def ofInt? (n : Int) : Option Double :=
  match nearest (decide (n < 0)) n.natAbs 1 with
  | .infinite _ => none
  | d => some d

def isZero : Double → Bool
  | .finite _ m _ => m == 0
  | _ => false

def isFinite : Double → Bool
  | .finite _ _ _ => true
  | _ => false

def truncate? : Double → Option Int
  | .finite negative m e =>
    let size : Nat := if 0 ≤ e then m * Nat.pow 2 e.toNat else m / Nat.pow 2 (-e).toNat
    some (if negative then -(size : Int) else size)
  | _ => none

def isWhole : Double → Bool
  | .finite _ m e => 0 ≤ e || m % Nat.pow 2 (-e).toNat == 0
  | _ => false

def ratio : Double → Nat × Nat
  | .finite _ m e => (m * Nat.pow 2 e.toNat, Nat.pow 2 (-e).toNat)
  | _ => (0, 1)

def floor? : Double → Option Int
  | .finite negative m e =>
    let num : Int := m * Int.pow 2 e.toNat
    some ((if negative then -num else num).fdiv (Int.pow 2 (-e).toNat))
  | _ => none

def timesNat (d : Double) (n : Nat) : Double :=
  let (num, den) := d.ratio
  match d with
  | .finite negative _ _ => nearest negative (num * n) den
  | d => d

def divideBy (d : Double) (n : Nat) : Double :=
  let (num, den) := d.ratio
  match d with
  | .finite negative _ _ => nearest negative num (den * n)
  | d => d

def aboveFloor (d : Double) : Double :=
  match d, d.floor? with
  | .finite negative _ _, some floor =>
    let (num, den) := d.ratio
    nearest false ((if negative then -(num : Int) else num) - floor * den).toNat den
  | d, _ => d

/-- The whole number nearest to a finite size; a half goes up. -/
def roundSize (d : Double) : Nat :=
  let (num, den) := d.ratio
  (2 * num + den) / (2 * den)

def microsAboveFloor (d : Double) : Nat := (d.aboveFloor.timesNat 1000000).roundSize

/-- The nearest whole number of millionths; a tie goes to the even neighbour. Only the fraction is
taken as a double when it is scaled. -/
def millionths? (d : Double) : Option Int :=
  match d, d.truncate? with
  | .finite negative m e, some whole =>
    let fraction := Double.finite negative (m % Nat.pow 2 (-e).toNat) e
    let (num, den) := (fraction.timesNat 1000000).ratio
    let size : Int := roundQuotient (whole.natAbs * 1000000 * den + num) den
    some (if negative then -size else size)
  | _, _ => none

def floorQuotient (d by_ : Double) : Int :=
  let signed := fun (x : Double) => match x with
    | .finite true _ _ => (-(x.ratio.1 : Int), x.ratio.2)
    | x => ((x.ratio.1 : Int), x.ratio.2)
  let (num, den) := signed d
  let (num', den') := signed by_
  (num * den').fdiv (den * num')

def exceeds (d : Double) (n : Nat) : Bool :=
  match d with
  | .finite _ _ _ => n * d.ratio.2 < d.ratio.1
  | .infinite _ => true
  | .nan => false

example : millionths? (ofDecimal false 25 (-7)) = some 2 := by decide
example : millionths? (ofDecimal true 36007 (-1)) = some (-3600700000) := by decide

end Double

/-! ## The line of numbers

Integers and doubles share one line, on which they are compared by exact value. The missing
number has no place on it.
-/

/-- A place on the line: `point m e` is `m · 2 ^ e`. -/
inductive Extended where
  | unplaced
  | below
  | point (m e : Int)
  | above
  deriving DecidableEq, Inhabited

namespace Extended

def ofInt (n : Int) : Extended := .point n 0

def ofDouble : Double → Extended
  | .nan => .unplaced
  | .infinite negative => if negative then .below else .above
  | .finite negative m e => .point (if negative then -(m : Int) else m) e

/-- `m` in units of `2 ^ unit`, which is at most `2 ^ e`. -/
def inUnits (m e unit : Int) : Int := m * Int.pow 2 (e - unit).toNat

def pointLt (m e n f : Int) : Bool := inUnits m e (min e f) < inUnits n f (min e f)

def pointEq (m e n f : Int) : Bool := inUnits m e (min e f) == inUnits n f (min e f)

def lt : Extended → Extended → Bool
  | .below, .point _ _ => true
  | .below, .above => true
  | .point _ _, .above => true
  | .point m e, .point n f => pointLt m e n f
  | _, _ => false

/-- The missing number is not even equal to itself. -/
def eq : Extended → Extended → Bool
  | .below, .below => true
  | .above, .above => true
  | .point m e, .point n f => pointEq m e n f
  | _, _ => false

end Extended

end RecordFlow
