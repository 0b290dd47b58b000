import RecordFlow.Http.Address
import RecordFlow.Http.Correlation
import RecordFlow.Value.Basic

/-! # Posting to other services

What is sent to another service, and what its answer means.
-/
namespace RecordFlow.Http

structure Posting where
  url : String
  /-- Whether the address has a scheme and a host. -/
  isAddressed : Bool
  method : String
  headers : Headers
  body : Option Value
  deriving Inhabited

def contentType : String := "Content-Type"

/-- The content is JSON unless the headers say otherwise. -/
def withContentType (headers : Fields) : Fields :=
  let given := headers.get? contentType
  (contentType, given.getD (.str "application/json")) :: headers.filter (·.1 != contentType)

/-- Headers by lower-case name; values under several spellings of a name are listed together. -/
def gathered (headers : Headers) : Headers :=
  headers.foldl
    (fun acc h =>
      let name := lowerName h.1
      match acc.lookup name with
      | some _ => acc.map fun g => if g.1 = name then (g.1, g.2 ++ ", " ++ h.2) else g
      | none => acc ++ [(name, h.2)])
    []

/-- What is sent; null is no body. -/
def Posting.prepare (url method : String) (headers : Fields) (body : Value) :
    Except RequestFault Posting := do
  let address ← (Address.read url).mapError .address
  let headers ← (Headers.read (withContentType headers)).mapError .header
  if !body.isFinite then throw .body
  return {
    url := address.target
    isAddressed := address.isAbsolute
    method := Text.upper method
    headers := gathered headers
    body := if body.isNull then none else some body }

structure Answer where
  status : Int
  body : Option String
  deriving Inhabited

def Answer.keep (status : Int) (text : String) : Answer :=
  ⟨status, some (String.ofList (text.toList.take 2000))⟩

/-- The answer to what was sent. That the address leads nowhere is found out only now. -/
def Posting.answered (p : Posting) (a : Answer) : Except RequestFault Answer :=
  if p.isAddressed then .ok a else .error (.unaddressed p.url)

def Answer.ok (a : Answer) : Bool := 200 ≤ a.status && a.status < 300

end RecordFlow.Http
