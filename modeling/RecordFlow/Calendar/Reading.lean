import RecordFlow.Calendar.Instant
import RecordFlow.Text.Digit

/-! # Reading days and times

Days are written by month or by week, with or without dashes; a time may follow after any one
character, and an offset after the time. The reader counts octets, so that a text is taken as the
list of its octets, each as a character.
-/
namespace RecordFlow.Calendar
open Text

def octets (s : String) : List Char := s.toUTF8.toList.map fun b => Char.ofNat b.toNat

def digits? (n : Nat) (cs : List Char) : Option (Nat × List Char) :=
  let front := cs.take n
  if front.length = n then (front.mapM asciiDigit?).map fun ds => (ofDigits ds, cs.drop n)
  else none

def dash? (dashed : Bool) (cs : List Char) : Option (List Char) :=
  match dashed, cs with
  | false, cs => some cs
  | true, '-' :: rest => some rest
  | true, _ => none

/-- A day; what follows a complete day is not looked at. -/
def dateOctets? (cs : List Char) : Option Date :=
  match digits? 4 cs with
  | none => none
  | some (year, rest) =>
    let dashed := rest.head? == some '-'
    match (if dashed then rest.drop 1 else rest) with
    | 'W' :: rest =>
      match digits? 2 rest with
      | none => none
      | some (week, []) => Date.ofWeek? year week 1
      | some (week, rest) => do
        let (day, _) ← digits? 1 (← dash? dashed rest)
        Date.ofWeek? year week day
    | rest => do
      let (month, rest) ← digits? 2 rest
      let (day, _) ← digits? 2 (← dash? dashed rest)
      Date.ofMonth? year month day

/-- The day that a text of 7, 8 or 10 octets writes. -/
def Date.read? (s : String) : Option Date :=
  let cs := octets s
  if cs.length = 7 ∨ cs.length = 8 ∨ cs.length = 10 then dateOctets? cs else none

def isAsciiDigit (c : Char) : Bool := (asciiDigit? c).isSome

/-- Where the day ends and the separator stands. Without dashes a week may have a day of one digit
after it, which the number of digits that follow tells. -/
def separatorPlace? (cs : List Char) : Option Nat :=
  let at? := fun i => cs[i]?
  if cs.length < 7 then none
  else if cs.length = 7 then some 7
  else if at? 4 = some '-' then
    if at? 5 = some 'W' then
      if at? 8 = some '-' then
        if cs.length = 9 then none
        else if (at? 10).any isAsciiDigit then some 8 else some 10
      else some 8
    else some 10
  else if at? 4 = some 'W' then
    let stop := 7 + ((cs.drop 7).takeWhile isAsciiDigit).length
    if stop < 9 then some stop else if stop % 2 = 0 then some 7 else some 8
  else some 8

structure ClockReading where
  hours : Nat
  minutes : Nat
  seconds : Nat
  micros : Nat
  leftover : Bool

def leaves (cs : List Char) : Bool := cs.headD '\x00' != '\x00'

/-- Up to six digits of a fraction; digits after them are dropped. -/
def fraction? (cs : List Char) : Option (Nat × Bool) :=
  let size := min cs.length 6
  (digits? size cs).map fun r =>
    (r.1 * Nat.pow 10 (6 - size), leaves (r.2.dropWhile isAsciiDigit))

inductive Next where
  | stop (leftover : Bool)
  | pair (rest : List Char)
  | fraction (rest : List Char)

def next? (colons : Bool) (cs : List Char) : Option Next :=
  match cs with
  | [] => some (.stop false)
  | [c] => some (.stop (c != '\x00'))
  | c :: rest =>
    if colons ∧ c = ':' then some (.pair rest)
    else if c = '.' ∨ c = ',' then some (.fraction rest)
    else if colons then none
    else some (.pair cs)

def clock? (cs : List Char) : Option ClockReading := do
  let (h, rest) ← digits? 2 cs
  let colons := rest.head? == some ':'
  match ← next? colons rest with
  | .stop leftover => return ⟨h, 0, 0, 0, leftover⟩
  | .fraction rest => let (us, leftover) ← fraction? rest; return ⟨h, 0, 0, us, leftover⟩
  | .pair rest =>
    let (m, rest) ← digits? 2 rest
    match ← next? colons rest with
    | .stop leftover => return ⟨h, m, 0, 0, leftover⟩
    | .fraction rest => let (us, leftover) ← fraction? rest; return ⟨h, m, 0, us, leftover⟩
    | .pair rest =>
      let (s, rest) ← digits? 2 rest
      match ← next? colons rest with
      | .stop leftover => return ⟨h, m, s, 0, leftover⟩
      | .fraction rest | .pair rest =>
        let (us, leftover) ← fraction? rest
        return ⟨h, m, s, us, leftover⟩

def isOffsetMark (c : Char) : Bool := c = '+' || c = '-' || c = 'Z'

/-- The offset of a clock, in microseconds; less than a day. -/
def offset? : List Char → Option Int
  | 'Z' :: rest => if leaves rest then none else some 0
  | sign :: rest => do
    let r ← clock? rest
    if r.leftover then none
    else
      let seconds := r.hours * 3600 + r.minutes * 60 + r.seconds
      let micros := if seconds = 0 then 0 else seconds * 1000000 + r.micros
      if micros < 86400000000 then some (if sign = '-' then -(micros : Int) else micros) else none
  | [] => none

def timeOctets? (cs : List Char) : Option (Nat × Option Int) :=
  let front := cs.takeWhile (!isOffsetMark ·)
  let back := cs.dropWhile (!isOffsetMark ·)
  match clock? front with
  | none => none
  | some r =>
    let micros := (r.hours * 3600 + r.minutes * 60 + r.seconds) * 1000000 + r.micros
    if 23 < r.hours ∨ 59 < r.minutes ∨ 59 < r.seconds then none
    else if back.isEmpty then (if r.leftover then none else some (micros, none))
    else (offset? back).map fun o => (micros, some o)

def characterWidth (first : Char) : Nat :=
  if first.toNat < 0x80 then 1
  else if first.toNat / 16 = 0xe then 3
  else if first.toNat / 16 = 0xf then 4
  else 2

/-- The moment that a text writes; without an offset it is on the universal clock. -/
def Moment.read? (s : String) : Option Moment := do
  let cs := octets s
  let place ← separatorPlace? cs
  let date ← dateOctets? (cs.take place)
  match cs.drop place with
  | [] => return ⟨Instant.ofDate date 0, 0⟩
  | separator :: rest =>
    let (micros, offset) ← timeOctets? ((separator :: rest).drop (characterWidth separator))
    return ⟨Instant.ofDate date micros, offset.getD 0⟩

end RecordFlow.Calendar
