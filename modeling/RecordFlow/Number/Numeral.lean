import RecordFlow.Number.Double
import RecordFlow.Text.Part
import RecordFlow.Text.Digit

/-! # Numerals in text

A numeral is blank-padded text with an optional sign and either a decimal, which may group its
digits with single low lines and have an exponent, or the name of an infinity or of the missing
number. Decimal digits of every script count.
-/
namespace RecordFlow.Number
open Text

/-- Blank characters that may stand around a numeral: of the ASCII ones only white space. -/
def isMargin (c : Char) : Bool :=
  isBlank c && (c.toNat ≤ 0x20 → c = ' ' ∨ (9 ≤ c.toNat ∧ c.toNat ≤ 13))

def trim (cs : List Char) : List Char :=
  ((cs.dropWhile isMargin).reverse.dropWhile isMargin).reverse

def asciiDigits (cs : List Char) : List Char :=
  cs.map fun c => match decimalValue? c with
    | some d => Char.ofNat ('0'.toNat + d)
    | none => c

/-- Removes the low lines that stand between two digits; fails on any other. -/
def ungroup (afterDigit : Bool) : List Char → Option (List Char)
  | [] => some []
  | '_' :: c :: rest =>
    if afterDigit ∧ (asciiDigit? c).isSome then (c :: ·) <$> ungroup true rest else none
  | '_' :: [] => none
  | c :: rest => (c :: ·) <$> ungroup (asciiDigit? c).isSome rest

def splitDigits : List Char → List Nat × List Char
  | [] => ([], [])
  | c :: rest =>
    match asciiDigit? c with
    | some d => let (ds, rest) := splitDigits rest; (d :: ds, rest)
    | none => ([], c :: rest)

def splitSign : List Char → Bool × List Char
  | '-' :: rest => (true, rest)
  | '+' :: rest => (false, rest)
  | cs => (false, cs)

def exponent? : List Char → Option Int
  | [] => some 0
  | mark :: rest =>
    if mark = 'e' ∨ mark = 'E' then
      let (negative, rest) := splitSign rest
      match splitDigits rest with
      | (d :: ds, []) => some (if negative then -(ofDigits (d :: ds) : Int) else ofDigits (d :: ds))
      | _ => none
    else none

def decimal? (negative : Bool) (cs : List Char) : Option Double :=
  let (whole, rest) := splitDigits cs
  let (fraction, rest) := match rest with
    | '.' :: rest => splitDigits rest
    | rest => ([], rest)
  if whole.isEmpty && fraction.isEmpty then none
  else (exponent? rest).map fun x =>
    Double.ofDecimal negative (ofDigits (whole ++ fraction)) (x - fraction.length)

def name? (negative : Bool) (cs : List Char) : Option Double :=
  let name := String.ofList (cs.map Char.toLower)
  if name = "inf" ∨ name = "infinity" then some (.infinite negative)
  else if name = "nan" then some .nan
  else none

def read? (s : String) : Option Double := do
  let cs ← ungroup false (asciiDigits (trim s.toList))
  let (negative, cs) := splitSign cs
  (decimal? negative cs).orElse fun _ => name? negative cs

end RecordFlow.Number
