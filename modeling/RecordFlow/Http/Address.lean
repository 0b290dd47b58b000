import RecordFlow.Http.Host
import RecordFlow.Number.Whole

/-! # Addresses

An address has a scheme, a host with a socket number and perhaps a user, a path, a query and a
fragment. Its plain form has the scheme and the host in lower case, the host in ASCII, no socket
number where it is the usual one, no `.` or `..` among the parts of the path, and escapes for what
may not stand as it is.
-/
namespace RecordFlow.Http

structure Address where
  scheme : List Char
  user : List Char
  host : List Char
  socket : Option Int
  path : List Char
  query : Option (List Char)
  fragment : Option (List Char)
  deriving Inhabited

namespace Address
open Text (splitAll joinAll)

def printableBut (others : String) (c : Char) : Bool :=
  0x20 < c.toNat && c.toNat < 0x7F && !others.toList.contains c

def inFragment : Char → Bool := printableBut "\"<>`"

def inQuery : Char → Bool := printableBut "\"#<>"

def inPath : Char → Bool := printableBut "\"#<>?`\x7b\x7d"

def inUser : Char → Bool := printableBut "\"#<>?`\x7b\x7d/;=@[\\]^|"

/-- Carries out the steps `.` and `..` of a path; none leads above its beginning. -/
def plainPath (path : List Char) : List Char :=
  joinAll '/' ((splitAll (· = '/') path).foldl
    (fun done part =>
      if part = ['.'] then done
      else if part = ['.', '.'] then (if done = [[]] then done else done.dropLast)
      else done ++ [part])
    [])

def usualSocket (scheme : List Char) : Option Int :=
  if ["http".toList, "ws".toList].contains scheme then some 80
  else if ["https".toList, "wss".toList].contains scheme then some 443
  else if scheme = "ftp".toList then some 21
  else none

def plainSocket (scheme socket : List Char) : Except AddressFault (Option Int) :=
  if socket.isEmpty then .ok none
  else match Number.readWhole 10 (String.ofList socket) with
    | .ok n => .ok (if some n = usualSocket scheme then none else some n)
    | .error _ => .error (.socket (String.ofList socket))

def splitBefore (isEnd : Char → Bool) (cs : List Char) : List Char × List Char :=
  (cs.takeWhile (!isEnd ·), cs.dropWhile (!isEnd ·))

def isSchemeChar (c : Char) : Bool := c.isAlphanum || c = '+' || c = '.' || c = '-'

def splitScheme (cs : List Char) : List Char × List Char :=
  let (scheme, rest) := splitBefore (!isSchemeChar ·) cs
  match rest with
  | ':' :: rest => if scheme.head?.all Char.isAlpha then (scheme, rest) else ([], cs)
  | _ => ([], cs)

/-- User, host and socket number. The user ends at the last `@`. -/
def splitAuthority (cs : List Char) : List Char × List Char × List Char :=
  let (behind, before) := splitBefore (· = '@') cs.reverse
  let user := (before.drop 1).reverse
  let cs := behind.reverse
  let (host, rest) :=
    if cs.head? = some '[' ∧ cs.contains ']' then
      let (behind, before) := splitBefore (· = ']') cs.reverse
      (before.reverse, behind.reverse)
    else splitBefore (fun c => c = ':' || c = '@') cs
  (user, host, if rest.head? = some ':' then rest.drop 1 else rest)

def longest : Nat := 65536

def isControl (c : Char) : Bool := c.toNat < 0x20 || c.toNat = 0x7F

def fault? (text : String) : Option AddressFault :=
  let cs := text.toList
  if longest < cs.length then some .tooLong
  else (cs.find? isControl).map fun c => .unprintable c (cs.idxOf c)

/-- A path by itself starts with at most one slash, and with no colon. -/
def pathFault? : List Char → Option AddressFault
  | '/' :: '/' :: _ => some .slashesFirst
  | ':' :: _ => some .colonFirst
  | _ => none

/-- The plain form of an address from its parts; only a full address has a plain path. -/
def plain (scheme user host socket path : List Char) (query fragment : Option (List Char)) :
    Except AddressFault Address := do
  let host ← Host.read host
  let socket ← plainSocket scheme socket
  let isFull := !(scheme.isEmpty && user.isEmpty && host.isEmpty && socket.isNone)
  match if isFull then none else pathFault? path with
  | some fault => .error fault
  | none => .ok {
      scheme := scheme.map Char.toLower
      user := escape inUser user
      host := host
      socket := socket
      path := escape inPath (if isFull then plainPath path else path)
      query := query.map (escape inQuery)
      fragment := fragment.map (escape inFragment) }

def read (text : String) : Except AddressFault Address :=
  let (scheme, rest) := splitScheme text.toList
  let (authority, rest) := match rest with
    | '/' :: '/' :: rest => splitBefore (fun c => c = '/' || c = '?' || c = '#') rest
    | rest => ([], rest)
  let (user, host, socket) := splitAuthority authority
  let (path, rest) := splitBefore (fun c => c = '?' || c = '#') rest
  let (query, rest) := match rest with
    | '?' :: rest => let (query, rest) := splitBefore (· = '#') rest; (some query, rest)
    | rest => (none, rest)
  let fragment := match rest with
    | '#' :: rest => some rest
    | _ => none
  match fault? text with
  | some fault => .error fault
  | none => plain scheme user host socket path query fragment

def authority (a : Address) : List Char :=
  (if a.user.isEmpty then [] else a.user ++ ['@']) ++ a.host
    ++ (match a.socket with
      | some n => ':' :: (toString n).toList
      | none => [])

def queryText (a : Address) : List Char :=
  match a.query with
  | some q => '?' :: q
  | none => []

def text (a : Address) : String :=
  String.ofList ((if a.scheme.isEmpty then [] else a.scheme ++ [':'])
    ++ (if a.authority.isEmpty then [] else '/' :: '/' :: a.authority)
    ++ a.path
    ++ a.queryText
    ++ (match a.fragment with
      | some f => '#' :: f
      | none => []))

def isAbsolute (a : Address) : Bool := !a.scheme.isEmpty && !a.host.isEmpty

def fromRoot (a : Address) : List Char := '/' :: a.path.dropWhile (· = '/')

/-- What a request for this address asks for; without scheme and host, a path from the root. -/
def target (a : Address) : String :=
  if a.isAbsolute then a.text else String.ofList (a.fromRoot ++ a.queryText)

def servicePath (a : Address) : List Char :=
  let path := if a.isAbsolute then a.path else plainPath a.fromRoot
  if path.isEmpty then ['/'] else path

end Address

end RecordFlow.Http
