import RecordFlow.Number.Numeral
import RecordFlow.Value.Basic

/-! # Reading JSON text

A number without point and exponent is a whole number of any size, every other number a double.
Of a key that occurs twice the last value counts, at the place of the first.
-/
namespace RecordFlow.Json
open Number

def isSpace (c : Char) : Bool := c = ' ' || c = '\n' || c = '\r' || c = '\t'

def skip (cs : List Char) : List Char := cs.dropWhile isSpace

def hexValue? (c : Char) : Option Nat :=
  if '0' ≤ c ∧ c ≤ '9' then some (c.toNat - '0'.toNat)
  else if 'a' ≤ c ∧ c ≤ 'f' then some (c.toNat - 'a'.toNat + 10)
  else if 'A' ≤ c ∧ c ≤ 'F' then some (c.toNat - 'A'.toNat + 10)
  else none

def unit? (a b c d : Char) : Option Nat := do
  let a ← hexValue? a
  let b ← hexValue? b
  let c ← hexValue? c
  let d ← hexValue? d
  return ((a * 16 + b) * 16 + c) * 16 + d

def simpleEscape? : Char → Option Char
  | 'n' => some '\n'
  | 't' => some '\t'
  | 'r' => some '\r'
  | 'b' => some '\x08'
  | 'f' => some '\x0c'
  | '"' => some '"'
  | '\\' => some '\\'
  | '/' => some '/'
  | _ => none

def paired? (high low : Nat) : Option Nat :=
  if 0xd800 ≤ high ∧ high < 0xdc00 ∧ 0xdc00 ≤ low ∧ low < 0xe000 then
    some (0x10000 + (high - 0xd800) * 0x400 + (low - 0xdc00))
  else none

/-- Adds an escaped unit to the character numbers so far, the last of which comes first; the second
of a pair of surrogates completes the pair. -/
def addUnit (done : List Nat) (unit : Nat) : List Nat :=
  match done with
  | last :: before => match paired? last unit with
    | some c => c :: before
    | none => unit :: done
  | [] => [unit]

/-- Reads up to the closing quote; `done` holds the character numbers so far, the last first. -/
def stringTail (done : List Nat) : List Char → Option (String × List Char)
  | '"' :: rest => some (String.ofList (done.reverse.map Char.ofNat), rest)
  | '\\' :: 'u' :: a :: b :: c :: d :: rest =>
    match unit? a b c d with
    | some n => stringTail (addUnit done n) rest
    | none => none
  | '\\' :: c :: rest =>
    match simpleEscape? c with
    | some ch => stringTail (ch.toNat :: done) rest
    | none => none
  | c :: rest => stringTail (c.toNat :: done) rest
  | [] => none

def exponentPart : List Char → Int × Bool × List Char
  | [] => (0, false, [])
  | mark :: rest =>
    if mark = 'e' ∨ mark = 'E' then
      let (negative, digits) := splitSign rest
      match splitDigits digits with
      | ([], _) => (0, false, mark :: rest)
      | (ds, rest) => (if negative then -(Text.ofDigits ds : Int) else Text.ofDigits ds, true, rest)
    else (0, false, mark :: rest)

def number? (negative : Bool) (cs : List Char) : Option (Value × List Char) :=
  match splitDigits cs with
  | ([], _) => none
  | (whole, rest) =>
    let (fraction, rest) := match rest with
      | '.' :: tail => splitDigits tail
      | rest => ([], rest)
    let (x, marked, rest) := exponentPart rest
    let size := Text.ofDigits (whole ++ fraction)
    if fraction.isEmpty && !marked then
      some (.int (if negative then -(size : Int) else size), rest)
    else
      some (.double (Double.ofDecimal negative size (x - fraction.length)), rest)

def word? (word : String) (v : Value) (cs : List Char) : Option (Value × List Char) :=
  let w := word.toList
  if w.isPrefixOf cs then some (v, cs.drop w.length) else none

mutual
/-- A value at the front of the text; `fuel` bounds the number of nested parts. -/
def value? : (fuel : Nat) → List Char → Option (Value × List Char)
  | 0, _ => none
  | fuel + 1, cs =>
    match skip cs with
    | [] => none
    | '\x7b' :: rest =>
      match skip rest with
      | '\x7d' :: rest => some (.obj [], rest)
      | rest => (fields? fuel [] rest).map fun r => (.obj r.1, r.2)
    | '[' :: rest =>
      match skip rest with
      | ']' :: rest => some (.list [], rest)
      | rest => (items? fuel rest).map fun r => (.list r.1, r.2)
    | '"' :: rest => (stringTail [] rest).map fun r => (.str r.1, r.2)
    | '-' :: 'I' :: rest => word? "nfinity" (.double (.infinite true)) rest
    | '-' :: rest => number? true rest
    | 't' :: rest => word? "rue" (.bool true) rest
    | 'f' :: rest => word? "alse" (.bool false) rest
    | 'n' :: rest => word? "ull" .null rest
    | 'N' :: rest => word? "aN" (.double .nan) rest
    | 'I' :: rest => word? "nfinity" (.double (.infinite false)) rest
    | cs => number? false cs

def items? : (fuel : Nat) → List Char → Option (List Value × List Char)
  | 0, _ => none
  | fuel + 1, cs =>
    match value? fuel cs with
    | none => none
    | some (v, rest) =>
      match skip rest with
      | ']' :: rest => some ([v], rest)
      | ',' :: rest => (items? fuel rest).map fun r => (v :: r.1, r.2)
      | _ => none

def fields? : (fuel : Nat) → Fields → List Char → Option (Fields × List Char)
  | 0, _, _ => none
  | fuel + 1, done, cs =>
    match skip cs with
    | '"' :: rest =>
      match stringTail [] rest with
      | none => none
      | some (key, rest) =>
        match skip rest with
        | ':' :: rest =>
          match value? fuel rest with
          | none => none
          | some (v, rest) =>
            let done := Fields.put key v done
            match skip rest with
            | '\x7d' :: rest => some (done, rest)
            | ',' :: rest => fields? fuel done rest
            | _ => none
        | _ => none
    | _ => none
end

def read? (s : String) : Option Value :=
  let cs := s.toList
  match value? (2 * cs.length + 2) cs with
  | some (v, rest) => if (skip rest).isEmpty then some v else none
  | none => none

end RecordFlow.Json
