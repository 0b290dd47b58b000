import RecordFlow.Number.Numeral
import RecordFlow.Text.Quoted

/-! # Whole numbers in text

A whole number is blank-padded text with an optional sign and digits, which single low lines may
group. Digits of every script count, and letters where the base has them; in base 16 a mark `0x` may
stand in front. In base 10 the number of digits is limited.
-/
namespace RecordFlow

inductive BadNumeral where
  | malformed (base : Nat) (text : String)
  | tooLong (digits : Nat)
  deriving DecidableEq, Inhabited

def BadNumeral.message : BadNumeral → String
  | .malformed base text =>
    "invalid literal for int() with base " ++ toString base ++ ": "
      ++ String.ofList ((Text.quoted text).toList.take 200)
  | .tooLong digits =>
    "Exceeds the limit (4300 digits) for integer string conversion: value has " ++ toString digits
      ++ " digits; use sys.set_int_max_str_digits() to increase the limit"

namespace Number

def numeralLimit : Nat := 4300

def letterValue? (c : Char) : Option Nat :=
  if 'a' ≤ c ∧ c ≤ 'z' then some (c.toNat - 'a'.toNat + 10)
  else if 'A' ≤ c ∧ c ≤ 'Z' then some (c.toNat - 'A'.toNat + 10)
  else none

def digitValue? (base : Nat) (c : Char) : Option Nat :=
  ((Text.asciiDigit? c).orElse fun _ => letterValue? c).filter (· < base)

/-- The digits at the front, which single low lines may separate, and what follows them; fails on a
low line that is not between two digits. A digit has to come where `due` says so. -/
def groupedDigits? (base : Nat) (due : Bool) : List Char → Option (List Nat × List Char)
  | [] => if due then none else some ([], [])
  | c :: rest =>
    match digitValue? base c with
    | some d => (groupedDigits? base false rest).map fun (ds, rest) => (d :: ds, rest)
    | none =>
      if due then none
      else if c = '_' then groupedDigits? base true rest
      else some ([], c :: rest)

/-- Drops the mark of base 16, with a low line that may follow it. -/
def dropMark (base : Nat) (cs : List Char) : List Char :=
  match cs with
  | '0' :: mark :: rest =>
    if base = 16 ∧ (mark = 'x' ∨ mark = 'X') then
      (if rest.head? = some '_' then rest.drop 1 else rest)
    else cs
  | _ => cs

def ofDigitsIn (base : Nat) (ds : List Nat) : Nat := ds.foldl (fun n d => n * base + d) 0

def readWhole (base : Nat) (s : String) : Except BadNumeral Int :=
  let (negative, cs) := splitSign (asciiDigits (trim s.toList))
  match groupedDigits? base true (dropMark base cs) with
  | none => .error (.malformed base s)
  | some (ds, rest) =>
    if base = 10 ∧ numeralLimit < ds.length then .error (.tooLong ds.length)
    else if rest.isEmpty then
      let n : Int := ofDigitsIn base ds
      .ok (if negative then -n else n)
    else .error (.malformed base s)

example : (readWhole 10 " +1_000 ").toOption = some 1000 := by decide
example : (readWhole 16 "0x_ff").toOption = some 255 := by decide
example : (readWhole 10 "1__0").toOption = none := by decide

end Number

end RecordFlow
