/-!
# Blank characters

White space in the Unicode sense, and the larger class that also holds the four ASCII
separators. Numerals may stand between white space; texts are trimmed at both ends and split
into words by the larger class.
-/

namespace SimplexTableau.Text

/-- White space: the Unicode spaces and the line and paragraph ends. -/
def isSpace (c : Char) : Bool :=
  let n := c.toNat
  (9 ≤ n && n ≤ 13) || n = 32 || n = 0x85 || n = 0xA0 || n = 0x1680 ||
    (0x2000 ≤ n && n ≤ 0x200A) || n = 0x2028 || n = 0x2029 || n = 0x202F || n = 0x205F ||
    n = 0x3000

/-- White space or one of the separators U+001C to U+001F. -/
def isBlank (c : Char) : Bool :=
  isSpace c || (28 ≤ c.toNat && c.toNat ≤ 31)

/-- Removes the characters of a class from both ends. -/
def strip (p : Char → Bool) (cs : List Char) : List Char :=
  ((cs.dropWhile p).reverse.dropWhile p).reverse

/-- Removes the blanks at both ends. -/
def trim (cs : List Char) : List Char :=
  strip isBlank cs

/-- The maximal runs of characters that are not blank. -/
def words : List Char → List (List Char)
  | [] => []
  | c :: cs =>
    if isBlank c then words cs
    else
      match cs, words cs with
      | d :: _, w :: ws => if isBlank d then [c] :: w :: ws else (c :: w) :: ws
      | _, ws => [c] :: ws

/-- Puts single spaces between words, and none at the ends. -/
def collapse (cs : List Char) : List Char :=
  [' '].intercalate (words cs)

end SimplexTableau.Text
