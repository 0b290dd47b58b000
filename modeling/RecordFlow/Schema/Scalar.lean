import RecordFlow.Calendar.Reading
import RecordFlow.Number.Numeral
import RecordFlow.Schema.Checked
import RecordFlow.Uuid

/-! # Decoding single values

Requests are read with good will: whole numbers, booleans, identifiers and days may come as text,
and numbers may stand for booleans and days where nothing is lost. Text is only ever text.
-/
namespace RecordFlow.Schema
open Calendar Text

def string : Decoder String
  | .str s => .valid s
  | _ => .fail .string

def nonEmpty : Decoder String := fun v =>
  (string v).ensure (!·.isEmpty) fun _ => .stringTooShort

def link : Decoder String := fun v =>
  (nonEmpty v).ensure (fun s => s.startsWith "http://" || s.startsWith "https://")
    fun _ => .stringPattern

def anything : Decoder Value := .valid

def nullable {α : Type} (decode : Decoder α) : Decoder (Option α)
  | .null => .valid none
  | v => some <$> decode v

def oneOf {α : Type} (table : List (String × α)) : Decoder α
  | .str s => match table.lookup s with
    | some a => .valid a
    | none => .fail .literal
  | _ => .fail .literal

/-- White space around numbers; the separators of information are none. -/
def isSpace (c : Char) : Bool := isBlank c && !(28 ≤ c.toNat && c.toNat ≤ 31)

def trimmed (s : String) : List Char :=
  ((s.toList.dropWhile isSpace).reverse.dropWhile isSpace).reverse

/-- Drops the zeros at the front, and low lines among them. What is left starts with another digit,
a minus sign or, after a last zero, a point; of zeros alone the last character is left. -/
def withoutZeros? (cs : List Char) : Option (List Char) :=
  let front := cs.takeWhile fun c => c = '0' || c = '_'
  match cs, cs.drop front.length with
  | '0' :: _, [] => some (front.getLast?.toList)
  | '0' :: _, '.' :: rest => some (front.getLast?.toList ++ '.' :: rest)
  | '0' :: _, rest => if (rest.head?).any startsNumber then some rest else none
  | c :: _, _ => if startsNumber c then some cs else none
  | [], _ => none
where
  startsNumber (c : Char) : Bool := c = '-' || ('1' ≤ c && c ≤ '9')

def withoutFraction (cs : List Char) : List Char :=
  let digits := cs.takeWhile (· != '.')
  let zeros := cs.drop (digits.length + 1)
  if !zeros.isEmpty && zeros.all (· == '0') then digits else cs

/-- Drops single low lines, unless one stands at an end. -/
def withoutLines (cs : List Char) : List Char :=
  if cs.head? = some '_' ∨ cs.getLast? = some '_' ∨ (cs.zip (cs.drop 1)).contains ('_', '_') then cs
  else cs.filter (· != '_')

/-- The parts of a whole number in text that count: no plus sign, zeros in front, zeros behind a
point, or low lines. A minus sign in front is no part of what the zeros stand in front of. -/
def wholeParts? (s : String) : Option (List Char) := do
  let (sign, cs) := match trimmed s with
    | '-' :: rest => (['-'], rest)
    | '+' :: rest => ([], rest)
    | cs => ([], cs)
  if (trimmed s).head? = some '+' ∧ cs.head? = some '-' then none
  return sign ++ withoutLines (withoutFraction (← withoutZeros? cs))

def wholeLimit : Nat := 4300

/-- A minus sign or none, and digits of which the first is no zero unless it stands alone. -/
def plainWhole (cs : List Char) : Checked Int :=
  let (negative, cs) := match cs with
    | '-' :: rest => (true, rest)
    | cs => (false, cs)
  match Number.splitDigits cs with
  | ([], _) | (0 :: _ :: _, _) => .fail .intParsing
  | (digits, rest) =>
    if wholeLimit < digits.length then .fail .intSize
    else if !rest.isEmpty then .fail .intParsing
    else .valid (if negative then -(ofDigits digits : Int) else ofDigits digits)

def wholeText (s : String) : Checked Int :=
  match wholeParts? s with
  | none => .fail .intParsing
  | some cs => plainWhole cs

def isWord (n : Int) : Bool := -Int.pow 2 63 ≤ n && n < Int.pow 2 63

/-- The whole number of a double; the least machine word is taken to be out of range. -/
def wholeOfDouble (d : Double) : Checked Int :=
  match d.truncate? with
  | none => .fail .finite
  | some n =>
    if !d.isWhole then .fail .intFromFloat
    else if isWord n && n != -Int.pow 2 63 then .valid n
    else .fail .intSize

def int : Decoder Int
  | .int n => .valid n
  | .bool b => .valid (if b then 1 else 0)
  | .double d => wholeOfDouble d
  | .str s => wholeText s
  | _ => .fail .int

def intFrom (least : Int) : Decoder Int := fun v =>
  (int v).ensure (least ≤ ·) fun _ => .tooSmall

def yesWords : List String := ["1", "on", "t", "true", "y", "yes"]

def noWords : List String := ["0", "off", "f", "false", "n", "no"]

/-- Only 0 and 1 stand for booleans; numbers beyond a machine word are not even looked at. -/
def boolOfInt (n : Int) : Checked Bool :=
  if n = 0 then .valid false
  else if n = 1 then .valid true
  else if isWord n then .fail .boolParsing
  else .fail .bool

def bool : Decoder Bool
  | .bool b => .valid b
  | .int n => boolOfInt n
  | .double d =>
    match wholeOfDouble d with
    | .valid n => boolOfInt n
    | .invalid _ => .fail .bool
  | .str s =>
    let word := String.ofList (s.toList.map Char.toLower)
    if yesWords.contains word then .valid true
    else if noWords.contains word then .valid false
    else .fail .boolParsing
  | _ => .fail .bool

def uuid : Decoder Uuid
  | .str s => match Uuid.parse? s with
    | some u => .valid u
    | none => .fail .uuidParsing
  | _ => .fail .uuid

/-- The first day that is counted at all, of a year that is read but not accepted. -/
def firstDay : Int := -365

/-- A day that was read; the year 0 is no year. -/
def dayIn (year : Nat) (d : Date) : Checked Date :=
  if year = 0 then .fail .dateYear else .valid d

/-- The day of a Unix time in microseconds, which has to be a midnight. -/
def dayOfMicros (micros : Int) : Checked Date :=
  let t : Instant := ⟨micros⟩
  if t.dayNumber < firstDay ∨ 3652059 < t.dayNumber then .fail .dateParsing
  else if t.timeOfDay ≠ 0 then .fail .dateInexact
  else if t.dayNumber < 1 then .fail .dateYear
  else .valid t.date

/-- Times beyond this many seconds are taken for milliseconds. -/
def secondsLimit : Nat := 20000000000

def dayOfTime (n : Int) (micros : Nat) : Checked Date :=
  dayOfMicros ((if n.natAbs ≤ secondsLimit then n * 1000000 else n * 1000) + micros)

def dayOfInt (n : Int) : Checked Date :=
  if (Double.ofInt? n).isNone then .fail .date else dayOfTime n 0

/-- The day of a Unix time with a fraction, which is rounded to microseconds. -/
def dayOfDouble (d : Double) : Checked Date :=
  match d.floor? with
  | some n => dayOfTime n d.microsAboveFloor
  | none => .fail .dateParsing

/-- The offset at the end of a time: none, `Z`, or a sign with hours and minutes. -/
def isZone : List Char → Bool
  | [] => true
  | [c] => c == 'Z' || c == 'z'
  | sign :: rest =>
    (sign == '+' || sign == '-' || sign == '−') &&
      match digits? 2 rest with
      | none => false
      | some (h, rest) =>
        match digits? 2 (if rest.head? == some ':' then rest.drop 1 else rest) with
        | some (m, []) => h < 24 && m < 60
        | _ => false

def fractionDigits? : List Char → Option (List Char × List Char)
  | [] => some ([], [])
  | c :: tail =>
    if c = '.' ∨ c = ',' then
      let ds := tail.takeWhile isAsciiDigit
      if ds.isEmpty then none else some (ds, tail.drop ds.length)
    else some ([], c :: tail)

/-- Seconds with their fraction after a colon, or nothing, as whether they are zero. -/
def secondsAreZero? : List Char → Option (Bool × List Char)
  | ':' :: rest => do
    let (s, rest) ← digits? 2 rest
    let (fraction, rest) ← fractionDigits? rest
    if s < 60 then some (s == 0 && (fraction.take 6).all (· == '0'), rest) else none
  | rest => some (true, rest)

def midnight? (cs : List Char) : Option Bool := do
  let (h, rest) ← digits? 2 cs
  let (m, rest) ← digits? 2 (← dash? ':' rest)
  let (zero, rest) ← secondsAreZero? rest
  if h < 24 ∧ m < 60 ∧ isZone rest = true then some (h == 0 && m == 0 && zero) else none
where
  dash? (mark : Char) : List Char → Option (List Char)
    | c :: rest => if c = mark then some rest else none
    | [] => none

def monthDay? (cs : List Char) : Option (Date × List Char) := do
  let (year, rest) ← digits? 4 cs
  let (month, rest) ← digits? 2 (← midnight?.dash? '-' rest)
  let (day, rest) ← digits? 2 (← midnight?.dash? '-' rest)
  if 1 ≤ month ∧ month ≤ 12 ∧ 1 ≤ day ∧ day ≤ monthLength year month then
    some (⟨year, month, day⟩, rest)
  else none

/-- A day by itself, or one with a midnight behind it. -/
def writtenDay? (cs : List Char) : Option (Checked Date) := do
  let (d, rest) ← monthDay? cs
  match rest with
  | [] => some (dayIn d.year d)
  | separator :: rest =>
    if [' ', 'T', 't', '_'].contains separator then
      if ← midnight? rest then some (dayIn d.year d) else some (.fail .dateInexact)
    else none

/-- The day of a Unix time in text that has a point; milliseconds become seconds by a division of
doubles. -/
def dayOfDecimal (d : Double) : Checked Date :=
  let seconds := if d.exceeds secondsLimit then d.divideBy 1000 else d
  match seconds.floor? with
  | some n => dayOfMicros (n * 1000000 + seconds.microsAboveFloor)
  | none => .fail .dateParsing

/-- A Unix time in text. Only one with a point may have an exponent. -/
def timestampText (cs : List Char) : Checked Date :=
  let (negative, cs) := Number.splitSign cs
  match Number.splitDigits cs with
  | (whole, []) =>
    if whole.isEmpty then .fail .dateParsing
    else dayOfTime (if negative then -(ofDigits whole : Int) else ofDigits whole) 0
  | (_, '.' :: _) =>
    match Number.decimal? negative cs with
    | some d => dayOfDecimal d
    | none => .fail .dateParsing
  | _ => .fail .dateParsing

def dayText (s : String) : Checked Date :=
  (writtenDay? s.toList).getD (timestampText s.toList)

def date : Decoder Date
  | .str s => dayText s
  | .int n => dayOfInt n
  | .double d => dayOfDouble d
  | _ => .fail .date

end RecordFlow.Schema
