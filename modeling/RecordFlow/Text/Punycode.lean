import RecordFlow.Items

/-! # Punycode

Letters of any script in the letters, digits and the hyphen of ASCII. The plain characters come
first; of the others follow, in the order of their numbers, the distances from one insertion to the
next, each a numeral to the base of 36 whose digit limits adapt to the distances so far.
-/
namespace RecordFlow.Text.Punycode

def isPlain (c : Char) : Bool := c.toNat < 0x80

/-- Letters stand for 0 to 25, decimal digits for 26 to 35. -/
def digit (d : Nat) : Char := Char.ofNat (if d < 26 then 'a'.toNat + d else '0'.toNat + (d - 26))

/-- The limit of the digit at a place; a digit below it ends the numeral. -/
def limit (bias place : Nat) : Nat := min 26 (max 1 (place - bias))

/-- A distance as a numeral, from a place on; `fuel` is above it. -/
def numeral (bias place n : Nat) : (fuel : Nat) → List Char
  | 0 => []
  | fuel + 1 =>
    let t := limit bias place
    if n < t then [digit n]
    else
      digit (t + (n - t) % (36 - t)) :: numeral bias (place + 36) ((n - t) / (36 - t)) fuel

/-- Divides by 35 until the distance is small; every division raises the bias by 36. -/
def settle (n bias : Nat) : (fuel : Nat) → Nat
  | 0 => bias
  | fuel + 1 => if n ≤ 455 then bias + 36 * n / (n + 38) else settle (n / 35) (bias + 36) fuel

/-- The bias after a distance, when `count` characters are in place. -/
def adapt (n count : Nat) (first : Bool) : Nat :=
  let n := if first then n / 700 else n / 2
  let n := n + n / count
  settle n 0 (n + 1)

structure Progress where
  written : List Char
  distance : Nat
  bias : Nat
  placed : Nat

/-- Passes a character of the label while those with the number `point` are inserted. -/
def Progress.pass (plain point : Nat) (p : Progress) (c : Char) : Progress :=
  if c.toNat < point then { p with distance := p.distance + 1 }
  else if c.toNat = point then
    { written := p.written ++ numeral p.bias 36 p.distance (p.distance + 1)
      distance := 0
      bias := adapt p.distance (p.placed + 1) (p.placed == plain)
      placed := p.placed + 1 }
  else p

/-- Inserts the characters of each number in turn; those below `next` are in place. -/
def insertAll (label : List Char) (plain : Nat) : (next : Nat) → List Nat → Progress → Progress
  | _, [], p => p
  | next, point :: points, p =>
    let p := { p with distance := p.distance + (point - next) * (p.placed + 1) }
    let p := label.foldl (Progress.pass plain point) p
    insertAll label plain (point + 1) points { p with distance := p.distance + 1 }

def encode (label : List Char) : List Char :=
  let plain := label.filter isPlain
  let points := (sorted (fun m n => decide (m ≤ n)) ((label.filter (!isPlain ·)).map Char.toNat)).eraseDups
  let p := insertAll label plain.length 0x80 points ⟨[], 0, 72, plain.length⟩
  plain ++ (if plain.isEmpty then [] else ['-']) ++ p.written

def digitValue? (c : Char) : Option Nat :=
  if 'a' ≤ c ∧ c ≤ 'z' then some (c.toNat - 'a'.toNat)
  else if 'A' ≤ c ∧ c ≤ 'Z' then some (c.toNat - 'A'.toNat)
  else if '0' ≤ c ∧ c ≤ '9' then some (c.toNat - '0'.toNat + 26)
  else none

/-- A label that is being read: what is in place, the number and the place of the next insertion,
and the numeral that is being read, from its first digit on. -/
structure Insertion where
  placed : List Char
  isFirst : Bool
  point : Nat
  position : Nat
  bias : Nat
  place : Nat
  weight : Nat
  distance : Nat

def Insertion.insert (p : Insertion) (distance : Nat) : Option Insertion :=
  let count := p.placed.length + 1
  let position := p.position + distance
  let point := p.point + position / count
  if Nat.isValidChar point then
    some {
      placed := p.placed.insertIdx (position % count) (Char.ofNat point)
      isFirst := false
      point := point
      position := position % count + 1
      bias := adapt distance count p.isFirst
      place := 36
      weight := 1
      distance := 0 }
  else none

def Insertion.step (p : Insertion) (c : Char) : Option Insertion := do
  let d ← digitValue? c
  let t := limit p.bias p.place
  let distance := p.distance + d * p.weight
  if d < t then p.insert distance
  else some { p with place := p.place + 36, weight := p.weight * (36 - t), distance := distance }

def splitWritten (cs : List Char) : List Char × List Char :=
  let written := (cs.reverse.takeWhile (· != '-')).reverse
  (cs.take (cs.length - written.length - 1), written)

def decode? (cs : List Char) : Option (List Char) := do
  let (plain, written) := splitWritten cs
  let p ← written.foldlM Insertion.step ⟨plain, true, 0x80, 0, 72, 36, 1, 0⟩
  if p.place = 36 then some p.placed else none

example : decode? "bcher-kva".toList = some "bücher".toList := by decide +kernel

end RecordFlow.Text.Punycode
