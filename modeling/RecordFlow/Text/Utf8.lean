/-! # Bytes and characters

Characters written as bytes of UTF-8 and read back. What is no UTF-8 is read as replacement
characters: one for each longest beginning of a character, and one for each other stray byte.
-/
namespace RecordFlow.Text.Utf8

def encodeChar (c : Char) : List Nat := (String.utf8EncodeChar c).map UInt8.toNat

def replacement : Char := '\uFFFD'

/-- What may follow the first byte of a character: its payload, and the range of each further
byte. -/
def head? (b : Nat) : Option (Nat × List (Nat × Nat)) :=
  let next := (0x80, 0xBF)
  if b < 0x80 then some (b, [])
  else if b < 0xC2 then none
  else if b < 0xE0 then some (b - 0xC0, [next])
  else if b = 0xE0 then some (0, [(0xA0, 0xBF), next])
  else if b = 0xED then some (0xD, [(0x80, 0x9F), next])
  else if b < 0xF0 then some (b - 0xE0, [next, next])
  else if b = 0xF0 then some (0, [(0x90, 0xBF), next, next])
  else if b < 0xF4 then some (b - 0xF0, [next, next, next])
  else if b = 0xF4 then some (4, [(0x80, 0x8F), next, next])
  else none

/-- Reads further bytes: those `due` belong to a character whose payload so far is `payload`. -/
def decodeFrom (payload : Nat) : (due : List (Nat × Nat)) → List Nat → List Char
  | [], [] => []
  | _ :: _, [] => [replacement]
  | due, b :: rest =>
    let fresh := fun (_ : Unit) => match head? b with
      | none => replacement :: decodeFrom 0 [] rest
      | some (p, []) => Char.ofNat p :: decodeFrom 0 [] rest
      | some (p, due) => decodeFrom p due rest
    match due with
    | [] => fresh ()
    | (low, high) :: due =>
      if low ≤ b ∧ b ≤ high then
        let p := payload * 64 + (b - 0x80)
        if due.isEmpty then Char.ofNat p :: decodeFrom 0 [] rest else decodeFrom p due rest
      else replacement :: fresh ()

def decode (bytes : List Nat) : List Char := decodeFrom 0 [] bytes

example : decode [0x41, 0xC3, 0xA9, 0xC3, 0x42] = ['A', 'é', replacement, 'B'] := by decide

end RecordFlow.Text.Utf8
