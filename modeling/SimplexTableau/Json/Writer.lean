import SimplexTableau.Decimal.Shortest
import SimplexTableau.Json
import SimplexTableau.Text.Quoted

/-!
# Writing JSON

Values are written on one line, or over several lines with an indentation of two for files.
Decimals have the shortest text that reads back; characters beyond ASCII are escaped.
-/

namespace SimplexTableau.Json

open SimplexTableau.Text

/-- One character of a text; beyond the sixteen-bit characters two escapes are written. -/
def escaped (c : Char) : String :=
  let n := c.toNat
  if c = '"' then "\\\""
  else if c = '\\' then "\\\\"
  else if c = '\n' then "\\n"
  else if c = '\r' then "\\r"
  else if c = '\t' then "\\t"
  else if c = '\x08' then "\\b"
  else if c = '\x0c' then "\\f"
  else if 32 ≤ n && n < 127 then String.singleton c
  else if n < 0x10000 then "\\u" ++ hex 4 n
  else
    let offset := n - 0x10000
    "\\u" ++ hex 4 (0xD800 + offset / 0x400) ++ "\\u" ++ hex 4 (0xDC00 + offset % 0x400)

/-- A text between quotes. -/
def textLiteral (s : String) : String :=
  "\"" ++ String.join (s.toList.map escaped) ++ "\""

/-- Infinities and missing numbers have words of their own. -/
def decimalLiteral (x : Float) : String :=
  if x.isNaN then "NaN"
  else if x.isInf then (if x < 0 then "-Infinity" else "Infinity")
  else Decimal.shortestText x

/-- A text for a value that is neither a list nor an object. -/
def atom : Json → String
  | .null => "null"
  | .bool b => if b then "true" else "false"
  | .int n => toString n
  | .float x => decimalLiteral x
  | .str s => textLiteral s
  | .arr _ => "[]"
  | .obj _ => "\x7b\x7d"

/-- Puts a bracketed body around parts, each on a line of its own at the given depth. -/
def block (opening closing : String) (depth : Nat) (parts : List String) : String :=
  let margin (d : Nat) : String := String.ofList (List.replicate (2 * d) ' ')
  opening ++ "\n" ++ ",\n".intercalate (parts.map (margin (depth + 1) ++ ·)) ++ "\n" ++
    margin depth ++ closing

mutual

/-- A value over several lines, its first line already indented by twice the depth. -/
def pretty (depth : Nat) : Json → String
  | .arr (item :: items) => block "[" "]" depth (prettyItems (depth + 1) (item :: items))
  | .obj (field :: fields) =>
    block "\x7b" "\x7d" depth (prettyFields (depth + 1) (field :: fields))
  | value => atom value

def prettyItems (depth : Nat) : List Json → List String
  | [] => []
  | item :: items => pretty depth item :: prettyItems depth items

def prettyFields (depth : Nat) : List (String × Json) → List String
  | [] => []
  | (key, value) :: fields =>
    (textLiteral key ++ ": " ++ pretty depth value) :: prettyFields depth fields

end

mutual

/-- A value on one line. -/
def compact : Json → String
  | .arr items => "[" ++ ",".intercalate (compactItems items) ++ "]"
  | .obj fields => "\x7b" ++ ",".intercalate (compactFields fields) ++ "\x7d"
  | value => atom value

def compactItems : List Json → List String
  | [] => []
  | item :: items => compact item :: compactItems items

def compactFields : List (String × Json) → List String
  | [] => []
  | (key, value) :: fields => (textLiteral key ++ ":" ++ compact value) :: compactFields fields

end

end SimplexTableau.Json
