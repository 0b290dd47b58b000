import RecordFlow.Http.Fault
import RecordFlow.Http.Label
import RecordFlow.Http.Path
import RecordFlow.Json.Reader
import RecordFlow.Text.Casing
import RecordFlow.Text.Part
import RecordFlow.Text.Quoted
import RecordFlow.Text.Utf8

/-! # Hosts

A host is a number of four bytes, a number of eight groups between brackets, or a name. The plain
form of a name is in lower case, and each label beyond ASCII is written in ASCII.
-/

/-! ## Escapes in addresses

Characters that may not stand in a part of an address are written as their bytes, each a per cent
sign and two hexadecimal digits. Escapes that are there already are kept.
-/
namespace RecordFlow.Http

def escaped? (high low : Char) : Option Nat := do
  return 16 * (← Json.hexValue? high) + (← Json.hexValue? low)

def escapeChar (c : Char) : List Char :=
  (Text.Utf8.encodeChar c).flatMap fun b => '%' :: (Text.hexDigits 2 b).map Char.toUpper

/-- Escapes the characters that are not allowed; `skip` characters belong to an escape. -/
def escapeFrom (allowed : Char → Bool) : (skip : Nat) → List Char → List Char
  | _, [] => []
  | skip + 1, c :: rest => c :: escapeFrom allowed skip rest
  | 0, c :: rest =>
    let isEscape := match c, rest with
      | '%', high :: low :: _ => (escaped? high low).isSome
      | _, _ => false
    if isEscape then c :: escapeFrom allowed 2 rest
    else (if allowed c then [c] else escapeChar c) ++ escapeFrom allowed 0 rest

def escape (allowed : Char → Bool) (cs : List Char) : List Char := escapeFrom allowed 0 cs

/-- The bytes of text whose escapes are read; `skip` characters belong to an escape. -/
def bytesFrom : (skip : Nat) → List Char → List Nat
  | _, [] => []
  | skip + 1, _ :: rest => bytesFrom skip rest
  | 0, c :: rest =>
    let byte := match c, rest with
      | '%', high :: low :: _ => escaped? high low
      | _, _ => none
    match byte with
    | some b => b :: bytesFrom 2 rest
    | none => Text.Utf8.encodeChar c ++ bytesFrom 0 rest

def isAscii (c : Char) : Bool := c.toNat < 0x80

/-- Reads the escapes of text. A character beyond ASCII is never part of what escapes around it
write. -/
def unescape (cs : List Char) : List Char :=
  (cs.splitBy fun a b => isAscii a == isAscii b).flatMap fun run =>
    if run.all isAscii then Text.Utf8.decode (bytesFrom 0 run) else run

end RecordFlow.Http

namespace RecordFlow.Http.Host
open Text

/-- A number up to 255 in decimal digits, without zeros in front. -/
def isByte (cs : List Char) : Bool :=
  !cs.isEmpty && cs.length ≤ 3 && cs.all Char.isDigit && (cs.length = 1 || cs.head? != some '0')
    && ofDigits (cs.filterMap asciiDigit?) ≤ 255

def isFourBytes (host : List Char) : Bool :=
  let parts := splitAll (· = '.') host
  parts.length = 4 && parts.all isByte

def looksNumeric (host : List Char) : Bool :=
  let parts := splitAll (· = '.') host
  parts.length = 4 && parts.all fun part => !part.isEmpty && part.all Char.isDigit

def isGroup (cs : List Char) : Bool := !cs.isEmpty && cs.length ≤ 4 && cs.all isHex

/-- The groups between colons; four bytes at the end stand for two groups. -/
def groups? (cs : List Char) : Option (List (List Char)) :=
  let parts := splitAll (· = ':') cs
  let last := parts.getLast?.getD []
  if parts.length < 3 then none
  else if !last.contains '.' then some parts
  else if isFourBytes last then some (parts.dropLast ++ [['0'], ['0']])
  else none

def besideGap (parts : List (List Char)) : List (List Char) :=
  if parts = [[]] then [] else parts

/-- Eight groups, or fewer with one gap among them. -/
def isGroups (parts : List (List Char)) : Bool :=
  let inner := (parts.drop 1).dropLast
  match inner.count [] with
  | 0 => parts.length = 8 && parts.all isGroup
  | 1 =>
    let gap := inner.idxOf [] + 1
    let given := besideGap (parts.take gap) ++ besideGap (parts.drop (gap + 1))
    given.length ≤ 7 && given.all isGroup
  | _ => false

def isEightGroups (cs : List Char) : Bool :=
  let zone := cs.dropWhile (· != '%')
  (zone.isEmpty || (1 < zone.length && !(zone.drop 1).contains '%'))
    && (groups? (cs.takeWhile (· != '%'))).any isGroups

def isDot (c : Char) : Bool := ['.', '。', '．', '｡'].contains c

def labels? (name : List Char) : Option (List (List Char)) :=
  let all := splitAll isDot name
  let ended := all.getLast? = some []
  let given := if ended then all.dropLast else all
  let size := (joinAll '.' (all.map Label.plain)).length
  if given.all Label.isValid && size ≤ (if ended then 254 else 253) then some all else none

/-- The plain form of a host; a number stays as it is. -/
def read (host : List Char) : Except AddressFault (List Char) :=
  let text := String.ofList host
  if looksNumeric host then
    if isFourBytes host then .ok host else .error (.fourBytes text)
  else if host.head? = some '[' ∧ host.getLast? = some ']' then
    if isEightGroups (host.drop 1).dropLast then .ok host else .error (.eightGroups text)
  else
    let name := lowerChars host
    if name.all isAscii then .ok (escape inName name)
    else match labels? name with
      | some labels => .ok (joinAll '.' (labels.map Label.plain))
      | none => .error (.name text)
where
  inName (c : Char) : Bool := c.isAlphanum || "-._~!$&'()*+,;=\"`\x7b\x7d%|\\".toList.contains c

example : isFourBytes "10.0.0.255".toList = true ∧ isFourBytes "10.0.0.256".toList = false := by
  decide
example : isEightGroups "fe80::1".toList = true ∧ isEightGroups "1::2::3".toList = false := by
  decide

end RecordFlow.Http.Host
