import RecordFlow.Json.Reader
import RecordFlow.Number.Whole

/-! # Identifiers

Identifiers of 128 bits, written as 32 hexadecimal digits in five groups. Stored rows are numbered
table by table: the identifier of a row shows its table and, in decimal, its number. A number that
does not fit makes the last group longer.
-/
namespace RecordFlow

structure Uuid where
  value : Nat
  deriving DecidableEq, Inhabited

namespace Uuid

/-- The decimal digits of a number, read as hexadecimal ones; `fuel` is at least the number. -/
def decimalAsHex : (fuel n : Nat) → Nat
  | 0, n => n
  | fuel + 1, n => if n < 10 then n else decimalAsHex fuel (n / 10) * 16 + n % 10

def ofRow (table n : Nat) : Uuid :=
  ⟨table * Nat.pow 16 24 + 4 * Nat.pow 16 19 + 8 * Nat.pow 16 15 + decimalAsHex n n⟩

def text (u : Uuid) : String :=
  let ds := Text.hexDigits 32 u.value
  let group := fun start size => String.ofList ((ds.drop start).take size)
  "-".intercalate [group 0 8, group 8 4, group 12 4, group 16 4, String.ofList (ds.drop 20)]

def ofHex? (cs : List Char) : Option Uuid :=
  if cs.length = 32 then
    (cs.mapM Json.hexValue?).map fun ds => ⟨ds.foldl (fun n d => n * 16 + d) 0⟩
  else none

/-- Five groups of 8, 4, 4, 4 and 12 digits with dashes between them. -/
def ofGroups? (cs : List Char) : Option Uuid :=
  if cs.length = 36 ∧ [8, 13, 18, 23].all (fun i => cs[i]? == some '-') then
    ofHex? (cs.take 8 ++ (cs.drop 9).take 4 ++ (cs.drop 14).take 4 ++ (cs.drop 19).take 4
      ++ cs.drop 24)
  else none

def urnMark : List Char := "urn:uuid:".toList

/-- An identifier by itself, with or without dashes, in braces, or as a name in its own space. -/
def parse? (s : String) : Option Uuid :=
  let cs := s.toList
  match cs with
  | '\x7b' :: rest =>
    if cs.length = 38 ∧ rest.getLast? = some '\x7d' then ofGroups? rest.dropLast else none
  | _ =>
    if cs.length = 45 ∧ urnMark.isPrefixOf cs then ofGroups? (cs.drop 9)
    else (ofGroups? cs).orElse fun _ => ofHex? cs

inductive Unreadable where
  | badLength
  | badDigits (cause : BadNumeral)
  deriving DecidableEq, Inhabited

def Unreadable.message : Unreadable → String
  | .badLength => "badly formed hexadecimal UUID string"
  | .badDigits cause => cause.message

def without (mark : List Char) : List Char → List Char
  | [] => []
  | c :: rest =>
    if mark.isPrefixOf (c :: rest) then without mark (rest.drop (mark.length - 1))
    else c :: without mark rest
termination_by cs => cs.length
decreasing_by all_goals (simp only [List.length_cons, List.length_drop]; omega)

def isBrace (c : Char) : Bool := c = '\x7b' || c = '\x7d'

/-- Reads an identifier after dropping name marks, outer braces and all dashes; 32 characters have
to be left, and write a number in base 16. -/
def read (s : String) : Except Unreadable Uuid :=
  let cs := without "uuid:".toList (without "urn:".toList s.toList)
  let cs := ((cs.dropWhile isBrace).reverse.dropWhile isBrace).reverse.filter (· != '-')
  if cs.length = 32 then
    match Number.readWhole 16 (String.ofList cs) with
    | .ok n => .ok ⟨n.toNat⟩
    | .error cause => .error (.badDigits cause)
  else .error .badLength

example : (ofRow 4 12).text = "00000004-0000-4000-8000-000000000012" := by decide

end Uuid

end RecordFlow
