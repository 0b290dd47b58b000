import RecordFlow.Number.Places
import RecordFlow.Value.Text

/-! # Places in a message

A place says how an argument is written: as text, quoted, as a character, or as a number in some
base or form, with a sign, a least width and a precision.
-/
namespace RecordFlow.Log

/-! ## Traces of failures

An entry may bring a failure with it: its kind, the failure itself, and its trace. Only an absent
failure can be written; whatever else stands there is no failure and has no trace.
-/

inductive Untraceable where
  | noParts (kind : String)
  | noTrace
  | tooShort (what : String)
  | lacks (kind part : String)
  deriving DecidableEq, Inhabited

def Untraceable.message : Untraceable → String
  | .noParts kind => s!"'{kind}' object is not subscriptable"
  | .noTrace => "2"
  | .tooShort what => what ++ " index out of range"
  | .lacks kind part => s!"'{kind}' object has no attribute '{part}'"

def traceOf (what : String) : List Value → Except Untraceable String
  | _ :: failure :: trace :: _ =>
    if !trace.isNull then .error (.lacks trace.kindName "tb_frame")
    else if !failure.isNull then .error (.lacks failure.kindName "__suppress_context__")
    else .ok "NoneType: None"
  | _ => .error (.tooShort what)

def trace? (failure : Value) : Except Untraceable (Option String) :=
  if failure.isFalsy then .ok none
  else match failure with
    | .list parts => some <$> traceOf "list" parts
    | .str s => some <$> traceOf "string" (s.toList.map fun c => .str c.toString)
    | .obj _ => .error .noTrace
    | v => .error (.noParts v.kindName)

/-! ## Filling a place -/

inductive Misfit where
  | unknownLetter (letter : Char) (position : Nat)
  | unfinished
  | unfinishedKey
  | tooWide
  | tooPrecise
  | starTooWide
  | starTooPrecise
  | starNotWhole
  | missingKey (key : String)
  | unnamed
  | notPosition
  | tooFew
  | tooMany
  | notNumber (letter : Char) (kind : String)
  | notWhole (letter : Char) (kind : String)
  | notReal (kind : String)
  | notCharacter
  | noSuchCharacter
  | infinite
  | notANumber
  | outOfRange
  | trace (cause : Untraceable)
  deriving DecidableEq, Inhabited

/-- A letter that does not print as ASCII is shown by its number alone. -/
def Misfit.message : Misfit → String
  | .unknownLetter letter position =>
    let shown := if 31 ≤ letter.toNat ∧ letter.toNat < 127 then letter else '?'
    "unsupported format character '" ++ shown.toString ++ "' (0x"
      ++ String.ofList (Nat.toDigits 16 letter.toNat) ++ ") at index " ++ toString position
  | .unfinished => "incomplete format"
  | .unfinishedKey => "incomplete format key"
  | .tooWide => "width too big"
  | .tooPrecise => "precision too big"
  | .starTooWide => "Python int too large to convert to C ssize_t"
  | .starTooPrecise => "Python int too large to convert to C int"
  | .starNotWhole => "* wants int"
  | .missingKey key => Text.quoted key
  | .unnamed => "format requires a mapping"
  | .notPosition => "list indices must be integers or slices, not str"
  | .tooFew => "not enough arguments for format string"
  | .tooMany => "not all arguments converted during string formatting"
  | .notNumber letter kind =>
    "%" ++ letter.toString ++ " format: a real number is required, not " ++ kind
  | .notWhole letter kind =>
    "%" ++ letter.toString ++ " format: an integer is required, not " ++ kind
  | .notReal kind => "must be real number, not " ++ kind
  | .notCharacter => "%c requires int or char"
  | .noSuchCharacter => "%c arg not in range(0x110000)"
  | .infinite => "cannot convert float infinity to integer"
  | .notANumber => "cannot convert float NaN to integer"
  | .outOfRange => "int too large to convert to float"
  | .trace cause => cause.message

structure Place where
  flags : List Char
  width : Nat
  precision : Option Nat
  letter : Char
  deriving Inhabited

def Place.has (p : Place) (flag : Char) : Bool := p.flags.contains flag

def whole? : Value → Option Int
  | .int n => some n
  | .bool b => some (if b then 1 else 0)
  | _ => none

/-- An argument on its way to the message: sign, mark of the base, and what follows them. Only
numbers have a sign of their own or zeros in front. -/
structure Draft where
  numeric : Bool
  sign : List Char
  mark : List Char
  body : List Char
  deriving Inhabited

def Draft.ofText (cs : List Char) : Draft := ⟨false, [], [], cs⟩

def Draft.ofNumber (p : Place) (negative : Bool) (mark body : List Char) : Draft where
  numeric := true
  sign :=
    if negative then ['-'] else if p.has '+' then ['+'] else if p.has ' ' then [' '] else []
  mark := mark
  body := body

def upperIf (upper : Bool) (cs : List Char) : List Char :=
  if upper then cs.map Char.toUpper else cs

/-- A whole number has at least as many digits as the precision says. -/
def wholeDraft (p : Place) (base : Nat) (mark : List Char) (n : Int) : Draft :=
  let digits := Nat.toDigits base n.natAbs
  let zeros := List.replicate (p.precision.getD 0 - digits.length) '0'
  let upper := p.letter == 'X'
  Draft.ofNumber p (n < 0) (if p.has '#' then upperIf upper mark else [])
    (upperIf upper (zeros ++ digits))

/-- Numbers lose their fraction in base 10. -/
def decimalWhole (letter : Char) (v : Value) : Except Misfit Int :=
  match v with
  | .double .nan => .error .notANumber
  | .double (.infinite _) => .error .infinite
  | .double d => .ok (d.truncate?.getD 0)
  | v => match whole? v with
    | some n => .ok n
    | none => .error (.notNumber letter v.kindName)

def exactWhole (letter : Char) (v : Value) : Except Misfit Int :=
  match whole? v with
  | some n => .ok n
  | none => .error (.notWhole letter v.kindName)

def real (v : Value) : Except Misfit Double :=
  match v with
  | .double d => .ok d
  | v => match whole? v with
    | some n => match Double.ofInt? n with
      | some d => .ok d
      | none => .error .outOfRange
    | none => .error (.notReal v.kindName)

def realDraft (p : Place) (form : Double.Form) (d : Double) : Draft :=
  let cs := d.placed form (p.precision.getD 6) (p.has '#')
  let negative := cs.head? = some '-'
  Draft.ofNumber p negative [] (upperIf p.letter.isUpper (if negative then cs.drop 1 else cs))

def character (v : Value) : Except Misfit Char :=
  match v with
  | .str s => match s.toList with
    | [c] => .ok c
    | _ => .error .notCharacter
  | v => match whole? v with
    | some n => if 0 ≤ n ∧ n < 0x110000 then .ok (Char.ofNat n.toNat) else .error .noSuchCharacter
    | none => .error .notCharacter

/-- Text is cut off at the precision. -/
def textDraft (p : Place) (s : String) : Draft :=
  .ofText (match p.precision with
    | some n => s.toList.take n
    | none => s.toList)

def Place.draft (p : Place) (position : Nat) (v : Value) : Except Misfit Draft :=
  match p.letter with
  | 's' => .ok (textDraft p v.text)
  | 'r' => .ok (textDraft p v.literal)
  | 'a' => .ok (textDraft p (Text.asciiOnly v.literal))
  | 'c' => (character v).map fun c => .ofText [c]
  | 'd' | 'i' | 'u' => (decimalWhole p.letter v).map (wholeDraft p 10 [])
  | 'o' => (exactWhole 'o' v).map (wholeDraft p 8 ['0', 'o'])
  | 'x' | 'X' => (exactWhole p.letter v).map (wholeDraft p 16 ['0', 'x'])
  | 'e' | 'E' => (real v).map (realDraft p .exponential)
  | 'f' | 'F' => (real v).map (realDraft p .positional)
  | 'g' | 'G' => (real v).map (realDraft p .general)
  | letter => .error (.unknownLetter letter position)

/-- The draft filled up to the width: behind it, between sign and digits, or before it. -/
def Place.padded (p : Place) (d : Draft) : List Char :=
  let missing := p.width - (d.sign.length + d.mark.length + d.body.length)
  if p.has '-' then d.sign ++ d.mark ++ d.body ++ List.replicate missing ' '
  else if p.has '0' && d.numeric then
    d.sign ++ d.mark ++ List.replicate missing '0' ++ d.body
  else List.replicate missing ' ' ++ d.sign ++ d.mark ++ d.body

def Place.write (p : Place) (position : Nat) (v : Value) : Except Misfit (List Char) :=
  (p.draft position v).map p.padded

end RecordFlow.Log
