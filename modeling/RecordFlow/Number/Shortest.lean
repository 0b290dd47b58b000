import RecordFlow.Number.Double

/-! # Shortest decimal text

The decimal with the fewest digits among those that read back as the number, and of these the
nearest, or the even one if two are equally near. The reals that round to `m · 2 ^ e` form an
interval; on the grids of 1, 2, … 17 digits the two neighbours of the number are tested for it in
exact arithmetic.
-/
namespace RecordFlow.Double

structure Decimal where
  coefficient : Nat
  power : Int
  deriving DecidableEq, Inhabited

def Decimal.compareWith (d : Decimal) (num den : Nat) : Ordering :=
  if 0 ≤ d.power then compare (d.coefficient * Nat.pow 10 d.power.toNat * den) num
  else compare (d.coefficient * den) (num * Nat.pow 10 (-d.power).toNat)

/-- The interval of reals that round to a number, in quarters of its last binary place. -/
structure Interval where
  low : Nat
  middle : Nat
  high : Nat
  closed : Bool
  unitNum : Nat
  unitDen : Nat

def interval (m : Nat) (e : Int) : Interval where
  low := if m = mantissaBound / 2 ∧ leastExponent < e then 4 * m - 1 else 4 * m - 2
  middle := 4 * m
  high := 4 * m + 2
  closed := m % 2 == 0
  unitNum := if 2 ≤ e then Nat.pow 2 (e - 2).toNat else 1
  unitDen := if 2 ≤ e then 1 else Nat.pow 2 (2 - e).toNat

def Interval.has (i : Interval) (d : Decimal) : Bool :=
  let low := d.compareWith (i.low * i.unitNum) i.unitDen
  let high := d.compareWith (i.high * i.unitNum) i.unitDen
  if i.closed then low != .lt && high != .gt else low == .gt && high == .lt

def leadingPower (num den : Nat) : Int :=
  if den ≤ num then (digitCount (num / den) : Int) - 1
  else -(digitCount ((den + num - 1) / num - 1) : Int)

def neighbours (num den : Nat) (power : Int) : Decimal × Decimal :=
  let floor :=
    if 0 ≤ power then num / (den * Nat.pow 10 power.toNat)
    else num * Nat.pow 10 (-power).toNat / den
  (⟨floor, power⟩, ⟨floor + 1, power⟩)

/-- Whether the upper neighbour is nearer to `num / den` than the lower one; of two that are equally
near, the even one counts as nearer. -/
def upperNearer (num den : Nat) (lower : Decimal) : Bool :=
  let half : Decimal := ⟨10 * lower.coefficient + 5, lower.power - 1⟩
  match half.compareWith num den with
  | .lt => true
  | .eq => lower.coefficient % 2 == 1
  | .gt => false

/-- Tries the grids of `digits`, `digits + 1`, … digits, `tries` of them. -/
def shortestFrom (i : Interval) (num den : Nat) (top : Int) : (tries digits : Nat) → Decimal
  | 0, digits => (neighbours num den (top - digits)).1
  | tries + 1, digits =>
    let (lower, upper) := neighbours num den (top - digits)
    match i.has lower, i.has upper with
    | true, true => if upperNearer num den lower then upper else lower
    | true, false => lower
    | false, true => upper
    | false, false => shortestFrom i num den top tries (digits + 1)

def Decimal.trimmed (d : Decimal) : (steps : Nat) → Decimal
  | 0 => d
  | steps + 1 =>
    if d.coefficient ≠ 0 ∧ d.coefficient % 10 = 0 then
      Decimal.trimmed ⟨d.coefficient / 10, d.power + 1⟩ steps
    else d

def shortest (m : Nat) (e : Int) : Decimal :=
  let i := interval m e
  let num := i.middle * i.unitNum
  (shortestFrom i num i.unitDen (leadingPower num i.unitDen) 17 0).trimmed 17

structure Layout where
  leastPositional : Int
  greatestPositional : Int
  exponentWidth : Nat
  notANumber : String
  infinity : String

/-- Positional from `10 ^ -4` to below `10 ^ 16`, always with a point; otherwise an exponent of at
least two digits with its sign. -/
def layout : Layout := ⟨-4, 15, 2, "nan", "inf"⟩

def zeros (n : Nat) : String := String.ofList (List.replicate n '0')

def Layout.exponent (l : Layout) (x : Int) : String :=
  let size := toString x.natAbs
  (if x < 0 then "e-" else "e+") ++ zeros (l.exponentWidth - size.length) ++ size

def Layout.magnitude (l : Layout) (d : Decimal) : String :=
  let digits := toString d.coefficient
  let point : Int := digits.length + d.power
  if d.coefficient = 0 then "0.0"
  else if l.leastPositional ≤ point - 1 ∧ point - 1 ≤ l.greatestPositional then
    if point ≤ 0 then "0." ++ zeros (-point).toNat ++ digits
    else if digits.length ≤ point then digits ++ zeros d.power.toNat ++ ".0"
    else
      let cs := digits.toList
      String.ofList (cs.take point.toNat) ++ "." ++ String.ofList (cs.drop point.toNat)
  else
    match digits.toList with
    | [] => ""
    | [c] => String.ofList [c] ++ l.exponent (point - 1)
    | c :: cs => String.ofList (c :: '.' :: cs) ++ l.exponent (point - 1)

def text : Double → String
  | .nan => layout.notANumber
  | .infinite negative => (if negative then "-" else "") ++ layout.infinity
  | .finite negative m e =>
    (if negative then "-" else "") ++
      (if m = 0 then layout.magnitude ⟨0, 0⟩ else layout.magnitude (shortest m e))

end RecordFlow.Double
