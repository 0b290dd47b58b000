/-! # Parts of texts -/
namespace RecordFlow.Text

def occursIn (part : List Char) : List Char → Bool
  | [] => part.isEmpty
  | c :: rest => part.isPrefixOf (c :: rest) || occursIn part rest

def splitAll (isSeparator : Char → Bool) : List Char → List (List Char)
  | [] => [[]]
  | c :: rest =>
    if isSeparator c then [] :: splitAll isSeparator rest
    else match splitAll isSeparator rest with
      | part :: parts => (c :: part) :: parts
      | [] => [[c]]

def joinAll (separator : Char) (parts : List (List Char)) : List Char :=
  List.intercalate [separator] parts

/-! ## Blank characters

The characters that separate words: white space and the four information separators.
-/

def blankPoints : List Nat := [
  9, 10, 11, 12, 13, 28, 29, 30, 31, 32, 133, 160, 5760, 8192, 8193, 8194, 8195, 8196, 8197,
  8198, 8199, 8200, 8201, 8202, 8232, 8233, 8239, 8287, 12288]

def isBlank (c : Char) : Bool := blankPoints.contains c.toNat

def stripChars (cs : List Char) : List Char :=
  ((cs.dropWhile isBlank).reverse.dropWhile isBlank).reverse

def strip (s : String) : String := String.ofList (stripChars s.toList)

def allBlank (s : String) : Bool := s.toList.all isBlank

example : isBlank ' ' = true ∧ isBlank '\t' = true ∧ isBlank 'x' = false := by decide

end RecordFlow.Text
