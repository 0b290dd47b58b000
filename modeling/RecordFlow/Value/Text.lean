import RecordFlow.Number.Shortest
import RecordFlow.Text.Quoted
import RecordFlow.Value.Basic

/-! # Values as text

What a value looks like inside a sentence: text stands for itself, but is quoted inside lists and
objects.
-/
namespace RecordFlow.Value

def boolText (b : Bool) : String := if b then "True" else "False"

mutual
def literal : Value → String
  | .null => "None"
  | .bool b => boolText b
  | .int n => toString n
  | .double d => d.text
  | .str s => Text.quoted s
  | .list items => "[" ++ ", ".intercalate (itemLiterals items) ++ "]"
  | .obj fields => "\x7b" ++ ", ".intercalate (fieldLiterals fields) ++ "\x7d"

def itemLiterals : List Value → List String
  | [] => []
  | v :: rest => literal v :: itemLiterals rest

def fieldLiterals : Fields → List String
  | [] => []
  | (k, v) :: rest => (Text.quoted k ++ ": " ++ literal v) :: fieldLiterals rest
end

def text : Value → String
  | .str s => s
  | v => v.literal

def kindName : Value → String
  | .null => "NoneType"
  | .bool _ => "bool"
  | .int _ => "int"
  | .double _ => "float"
  | .str _ => "str"
  | .list _ => "list"
  | .obj _ => "dict"

end RecordFlow.Value
