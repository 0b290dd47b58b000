import RecordFlow.Log.Place

/-! # Messages with places

A message has places for its arguments, each marked by a per cent sign; the mark written twice
stands for itself. A width or precision may be an argument of its own. Arguments come in order, or
one object gives them by name. Without arguments the message stands as it is.
-/
namespace RecordFlow.Log

/-- Where names are looked up: nowhere, in a list, where none is found, or in an object. -/
inductive Directory where
  | none
  | positions
  | names (fields : Fields)
  deriving Inhabited

structure Supply where
  rest : List Value
  directory : Directory
  deriving Inhabited

/-- With a directory, arguments may be left over. -/
def Supply.mayRemain (s : Supply) : Bool :=
  match s.directory with
  | .none => false
  | _ => true

def Supply.take (s : Supply) : Except Misfit (Value × Supply) :=
  match s.rest with
  | v :: rest => .ok (v, { s with rest := rest })
  | [] => .error .tooFew

/-- Looks a name up; its value is then the only argument left. -/
def Supply.look (s : Supply) (key : String) : Except Misfit Supply :=
  match s.directory with
  | .none => .error .unnamed
  | .positions => .error .notPosition
  | .names fields =>
    match fields.get? key with
    | some v => .ok { s with rest := [v] }
    | none => .error (.missingKey key)

def Supply.ofList (args : List Value) : Supply := ⟨args, .none⟩

/-- An argument that stands by itself: an object is one argument and gives others by name. -/
def Supply.ofValue (v : Value) : Supply :=
  ⟨[v], match v with
    | .obj fields => .names fields
    | .list _ => .positions
    | _ => .none⟩

/-- The name at the front, whose brackets are balanced; `depth` of them are open. -/
def keyName? : (depth : Nat) → List Char → Option (List Char × List Char)
  | _, [] => none
  | depth, c :: rest =>
    if c = ')' ∧ depth = 1 then some ([], rest)
    else
      let depth := if c = '(' then depth + 1 else if c = ')' then depth - 1 else depth
      (keyName? depth rest).map fun (name, rest) => (c :: name, rest)

def readKey (s : Supply) : List Char → Except Misfit (Supply × List Char)
  | '(' :: rest =>
    if !s.mayRemain then .error .unnamed
    else match keyName? 1 rest with
      | none => .error .unfinishedKey
      | some (name, rest) => (s.look (String.ofList name)).map fun s => (s, rest)
  | cs => .ok (s, cs)

/-- A number, written out or taken from the arguments; a number written out must not exceed the
limit. -/
def readSize (limit : Nat) (beyond starBeyond : Misfit) (s : Supply) :
    List Char → Except Misfit (Option Int × Supply × List Char)
  | '*' :: rest => do
    let (v, s) ← s.take
    match whole? v with
    | none => .error .starNotWhole
    | some n =>
      if n < -(limit : Int) - 1 ∨ limit < n then .error starBeyond else .ok (some n, s, rest)
  | cs =>
    let digits := cs.takeWhile Char.isDigit
    if digits.isEmpty then .ok (none, s, cs)
    else
      let n := ((String.ofList digits).toNat?).getD 0
      if limit < n then .error beyond else .ok (some n, s, cs.drop digits.length)

def widthLimit : Nat := Nat.pow 2 63 - 1

def precisionLimit : Nat := Nat.pow 2 31 - 1

/-- A precision after its point; a point alone asks for none. -/
def readPrecision (s : Supply) : List Char → Except Misfit (Option Nat × Supply × List Char)
  | '.' :: rest => do
    let (n, s, rest) ← readSize precisionLimit .tooPrecise .starTooPrecise s rest
    .ok (some (n.getD 0).toNat, s, rest)
  | cs => .ok (none, s, cs)

def isFlag (c : Char) : Bool := ['-', '+', ' ', '#', '0'].contains c

/-- A mark of size, which says nothing here. -/
def dropSizeMark (cs : List Char) : List Char :=
  match cs with
  | c :: rest => if c = 'h' ∨ c = 'l' ∨ c = 'L' then rest else cs
  | [] => []

/-- Reads a place after its mark. A negative width fills up behind. -/
def readPlace (s : Supply) (cs : List Char) : Except Misfit (Place × Supply × List Char) := do
  let (s, cs) ← readKey s cs
  let flags := cs.takeWhile isFlag
  let (width, s, cs) ← readSize widthLimit .tooWide .starTooWide s (cs.drop flags.length)
  let (precision, s, cs) ← readPrecision s cs
  let width := width.getD 0
  let flags := if width < 0 then '-' :: flags else flags
  match dropSizeMark cs with
  | [] => .error .unfinished
  | letter :: rest => .ok (⟨flags, width.natAbs, precision, letter⟩, s, rest)

/-- Fills the places of a message of `size` characters from here on; `skip` characters belong to a
place already filled. -/
def fill (size : Nat) : (skip : Nat) → Supply → List Char → Except Misfit (List Char)
  | _, s, [] => if s.rest.isEmpty || s.mayRemain then .ok [] else .error .tooMany
  | skip + 1, s, _ :: rest => fill size skip s rest
  | 0, s, c :: rest =>
    if c ≠ '%' then (c :: ·) <$> fill size 0 s rest
    else if rest.head? = some '%' then ('%' :: ·) <$> fill size 1 s rest
    else do
      let (place, s, after) ← readPlace s rest
      let (v, s) ← s.take
      let written ← place.write (size - after.length - 1) v
      (written ++ ·) <$> fill size (rest.length - after.length) s rest

def format (message : String) (arguments : Supply) : Except Misfit String :=
  let cs := message.toList
  (String.ofList ·) <$> fill cs.length 0 arguments cs

end RecordFlow.Log
