import RecordFlow.Http.Fault
import RecordFlow.Text.Part
import RecordFlow.Value.Text

/-! # Correlation of requests

A request may bring the identifier under which its traces are gathered. Only short identifiers of
safe characters are taken over.
-/
namespace RecordFlow.Http

abbrev Headers := List (String × String)

def asciiText (s : String) : Except HeaderFault String :=
  let isAscii := fun c : Char => c.toNat < 0x80
  let plain := s.toList.takeWhile isAscii
  match (s.toList.drop plain.length).takeWhile (!isAscii ·) with
  | [] => .ok s
  | run => .error (.beyondAscii (String.ofList run) plain.length)

def Headers.read (fields : Fields) : Except HeaderFault Headers :=
  fields.mapM fun (name, value) => do
    let name ← asciiText name
    match value with
    | .str s => return (name, ← asciiText s)
    | v => .error (.notText v.kindName)

def lowerName (name : String) : String := String.ofList (name.toList.map Char.toLower)

/-- The first header of a name; letter case does not matter in names. -/
def header? (headers : Headers) (name : String) : Option String :=
  (headers.find? fun h => lowerName h.1 = lowerName name).map Prod.snd

def correlationHeader : String := "x-correlation-id"

def requestHeader : String := "x-request-id"

def isSafe (c : Char) : Bool :=
  ('A' ≤ c && c ≤ 'Z') || ('a' ≤ c && c ≤ 'z') || ('0' ≤ c && c ≤ '9')
    || c = '.' || c = '_' || c = ':' || c = '-'

def isAcceptable (id : String) : Bool :=
  !id.isEmpty && id.length ≤ 128 && id.toList.all isSafe

def correlation? (headers : Headers) : Option String :=
  [correlationHeader, requestHeader].findSome? fun name =>
    let id := Text.strip ((header? headers name).getD "")
    if isAcceptable id then some id else none

end RecordFlow.Http
