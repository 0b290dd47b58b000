import RecordFlow.Text.Digit
import RecordFlow.Text.Word
import RecordFlow.Value.Basic

/-! # Path labels

Requests are counted by the shape of their path: identifiers and numbers in it are written `{id}`.
-/
namespace RecordFlow.Http

def marker : List Char := "\x7bid\x7d".toList

def isHex (c : Char) : Bool :=
  ('0' ≤ c && c ≤ '9') || ('a' ≤ c && c ≤ 'f') || ('A' ≤ c && c ≤ 'F')

/-- What may stand at each place of an identifier: of the versions 1 to 5 and the common variant. -/
def identifierPattern : List (Char → Bool) :=
  let hex := fun n => List.replicate n isHex
  let dash : List (Char → Bool) := [(· == '-')]
  hex 8 ++ dash ++ hex 4 ++ dash ++ [fun c => '1' ≤ c && c ≤ '5'] ++ hex 3 ++ dash
    ++ ["89abAB".toList.contains] ++ hex 3 ++ dash ++ hex 12

def matchesPattern : List (Char → Bool) → List Char → Bool
  | [], _ => true
  | _ :: _, [] => false
  | p :: ps, c :: cs => p c && matchesPattern ps cs

def endsWord (cs : List Char) : Bool := !(cs.head?.any Text.isWord)

/-- An identifier that is a word by itself starts here; `inWord` tells of a word before it. -/
def startsIdentifier (inWord : Bool) (cs : List Char) : Bool :=
  !inWord && matchesPattern identifierPattern cs && endsWord (cs.drop identifierPattern.length)

/-- Replaces identifiers from here on; `skip` characters belong to one already replaced. -/
def replaceIdentifiers : (skip : Nat) → (inWord : Bool) → List Char → List Char
  | _, _, [] => []
  | skip + 1, _, c :: rest => replaceIdentifiers skip (Text.isWord c) rest
  | 0, inWord, c :: rest =>
    if startsIdentifier inWord (c :: rest) then
      marker ++ replaceIdentifiers (identifierPattern.length - 1) true rest
    else c :: replaceIdentifiers 0 (Text.isWord c) rest

/-- The length of the number that makes up a word at the front, zero if there is none. -/
def numberLength (cs : List Char) : Nat :=
  let digits := cs.takeWhile Text.isDecimal
  if endsWord (cs.drop digits.length) then digits.length else 0

def replaceNumbers : (skip : Nat) → List Char → List Char
  | _, [] => []
  | skip + 1, _ :: rest => replaceNumbers skip rest
  | 0, c :: rest =>
    let size := if c = '/' then numberLength rest else 0
    if size = 0 then c :: replaceNumbers 0 rest
    else c :: marker ++ replaceNumbers size rest

def sanitize (path : String) : String :=
  String.ofList (replaceNumbers 0 (replaceIdentifiers 0 false path.toList))

/-- A path as part of an address: it starts with a slash unless it is empty, has no line breaks and
tabs, and what would end it is escaped. -/
def seenPath (path : String) : String :=
  let cs := path.toList.flatMap fun c =>
    if c = '?' then "%3F".toList
    else if c = '#' then "%23".toList
    else if c = '\\' then "%5C".toList
    else if c = '\t' ∨ c = '\n' ∨ c = '\r' then []
    else [c]
  String.ofList (if path.isEmpty || path.toList.head? = some '/' then cs else '/' :: cs)

/-- The length of the name between a brace that is open already and the next closing one. -/
def parameterLength? (cs : List Char) : Option Nat :=
  let name := cs.takeWhile fun c => c != '\x7b' && c != '\x7d'
  if name.isEmpty then none
  else if (cs.drop name.length).head? = some '\x7d' then some name.length
  else none

def replaceParameters : (skip : Nat) → List Char → List Char
  | _, [] => []
  | skip + 1, _ :: rest => replaceParameters skip rest
  | 0, c :: rest =>
    match if c = '\x7b' then parameterLength? rest else none with
    | some size => marker ++ replaceParameters (size + 1) rest
    | none => c :: replaceParameters 0 rest

structure Route where
  format : Value
  path : Value
  deriving Inhabited

/-- The label of a request: its route's pattern if there is one, else the shape of its path. -/
def label (path : String) (route : Option Route) : String :=
  let pattern := match route with
    | some r => r.format.orElse r.path
    | none => .null
  match pattern with
  | .str s =>
    if s.isEmpty then sanitize (seenPath path) else String.ofList (replaceParameters 0 s.toList)
  | _ => sanitize (seenPath path)

end RecordFlow.Http
