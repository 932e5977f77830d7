import SimplexTableau.Decimal.Shortest
import SimplexTableau.Json
import SimplexTableau.Text.Quoted

/-!
# Raw values in messages

A message that cites a raw value shows a text as it is. Lists and objects are shown with
quoted texts, and the absence of a value and the truth values have words of their own.
-/

namespace SimplexTableau.Json

open SimplexTableau.Text SimplexTableau.Decimal

mutual

/-- A raw value as messages show it inside lists and objects: texts are quoted. -/
def displayNested : Json → String
  | .null => "None"
  | .bool b => if b then "True" else "False"
  | .int n => toString n
  | .float x => shortestText x
  | .str s => quoted s
  | .arr items => "[" ++ ", ".intercalate (displayItems items) ++ "]"
  | .obj fields => "\x7b" ++ ", ".intercalate (displayFields fields) ++ "\x7d"

def displayItems : List Json → List String
  | [] => []
  | item :: items => displayNested item :: displayItems items

def displayFields : List (String × Json) → List String
  | [] => []
  | (key, value) :: fields => (quoted key ++ ": " ++ displayNested value) :: displayFields fields

end

/-- A raw value as messages show it: a text stands for itself. -/
def display : Json → String
  | .str s => s
  | value => displayNested value

/-- The members of a raw value that can be counted: the items of a list, the characters of a
text, the keys of an object. -/
def members? : Json → Option (List Json)
  | .arr items => some items
  | .str s => some (s.toList.map fun c => .str (String.singleton c))
  | .obj fields => some (fields.map fun (key, _) => .str key)
  | _ => none

end SimplexTableau.Json
