import RecordFlow.Text.Ranges

/-! # Digits

Decimal digits of every script, which have a value from 0 to 9, and the wider class of
digit characters, which also has superscripts, subscripts and circled digits.
-/
namespace RecordFlow.Text

/-- The zeros of the scripts; the digits 1 to 9 follow each of them. -/
def zeroPoints : List Nat := [
  48, 1632, 1776, 1984, 2406, 2534, 2662, 2790, 2918, 3046, 3174, 3302, 3430, 3558, 3664, 3792,
  3872, 4160, 4240, 6112, 6160, 6470, 6608, 6784, 6800, 6992, 7088, 7232, 7248, 42528, 43216,
  43264, 43472, 43504, 43600, 44016, 65296, 66720, 68912, 69734, 69872, 69942, 70096, 70384,
  70736, 70864, 71248, 71360, 71472, 71904, 72016, 72784, 73040, 73120, 92768, 92864, 93008,
  120782, 120792, 120802, 120812, 120822, 123200, 123632, 125264, 130032]

/-- Digit characters that take no part in a decimal numeral. -/
def otherDigits : Ranges := [
  (178, 179), (185, 185), (4969, 4977), (6618, 6618), (8304, 8304), (8308, 8313), (8320, 8329),
  (9312, 9320), (9332, 9340), (9352, 9360), (9450, 9450), (9461, 9469), (9471, 9471),
  (10102, 10110), (10112, 10120), (10122, 10130), (68160, 68163), (69216, 69224),
  (69714, 69722), (127232, 127242)]

def decimalValue? (c : Char) : Option Nat :=
  let point := c.toNat
  (zeroPoints.find? fun start => start ≤ point ∧ point < start + 10).map (point - ·)

def isDecimal (c : Char) : Bool := (decimalValue? c).isSome

def isDigit (c : Char) : Bool := isDecimal c || otherDigits.has c.toNat

def allDigits (s : String) : Bool := s.toList.all isDigit && !s.isEmpty

def asciiDigit? (c : Char) : Option Nat :=
  if '0'.toNat ≤ c.toNat ∧ c.toNat ≤ '9'.toNat then some (c.toNat - '0'.toNat) else none

def ofDigits (ds : List Nat) : Nat := ds.foldl (fun n d => n * 10 + d) 0

example : decimalValue? '7' = some 7 ∧ decimalValue? 'x' = none := by decide
example : isDigit '²' = true ∧ isDecimal '²' = false := by decide

end RecordFlow.Text
