import RecordFlow.Text.Quoted

/-! # Faults of requests

Why a request cannot be sent: text that is no address, headers beyond ASCII, a body that cannot be
written, or an address that leads nowhere.
-/
namespace RecordFlow.Http

inductive AddressFault where
  | tooLong
  | unprintable (c : Char) (position : Nat)
  | fourBytes (host : String)
  | eightGroups (host : String)
  | name (host : String)
  | socket (text : String)
  | slashesFirst
  | colonFirst
  deriving DecidableEq, Inhabited

def AddressFault.message : AddressFault → String
  | .tooLong => "URL too long"
  | .unprintable c position =>
    "Invalid non-printable ASCII character in URL, " ++ Text.quoted c.toString
      ++ s!" at position {position}."
  | .fourBytes host => "Invalid IPv4 address: " ++ Text.quoted host
  | .eightGroups host => "Invalid IPv6 address: " ++ Text.quoted host
  | .name host => "Invalid IDNA hostname: " ++ Text.quoted host
  | .socket text => "Invalid port: " ++ Text.quoted text
  | .slashesFirst => "Relative URLs cannot have a path starting with '//'"
  | .colonFirst => "Relative URLs cannot have a path starting with ':'"

inductive HeaderFault where
  /-- The first characters beyond ASCII that stand together, and where they stand. -/
  | beyondAscii (run : String) (position : Nat)
  | notText (kind : String)
  deriving DecidableEq, Inhabited

def HeaderFault.message : HeaderFault → String
  | .beyondAscii run position =>
    let which := match run.toList with
      | [c] => s!"character '" ++ String.ofList (Text.numbered c) ++ s!"' in position {position}"
      | cs => s!"characters in position {position}-{position + cs.length - 1}"
    "'ascii' codec can't encode " ++ which ++ ": ordinal not in range(128)"
  | .notText kind => s!"Header value must be str or bytes, not <class '{kind}'>"

inductive RequestFault where
  | address (cause : AddressFault)
  | header (cause : HeaderFault)
  /-- The body holds a double that is no finite number. -/
  | body
  /-- The address has no scheme or no host. -/
  | unaddressed (target : String)
  deriving DecidableEq, Inhabited

def RequestFault.message : RequestFault → String
  | .address cause => cause.message
  | .header cause => cause.message
  | .body => "Out of range float values are not JSON compliant"
  | .unaddressed target => "unknown url type: " ++ Text.quoted target

end RecordFlow.Http
