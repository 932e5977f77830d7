/-!
# Phrases in any letter case

Key phrases are matched without regard to case. Besides the two ASCII cases, a dotted
capital or dotless small i stands for `i`, a long s for `s` and the kelvin sign for `k`.
-/

namespace SimplexTableau.Text

/-- Whether `c` is the lower-case ASCII letter `letter` in some case. -/
def sameLetter (letter c : Char) : Bool :=
  c.toLower = letter ||
    (letter = 'i' && (c.toNat = 0x130 || c.toNat = 0x131)) ||
    (letter = 's' && c.toNat = 0x17F) || (letter = 'k' && c.toNat = 0x212A)

/-- What follows a phrase, given in lower case, at the front of a text. -/
def afterPhrase? : (phrase text : List Char) → Option (List Char)
  | [], cs => some cs
  | _ :: _, [] => none
  | p :: ps, c :: cs => if sameLetter p c then afterPhrase? ps cs else none

/-- The first of several phrases that stands at the front of a text, and what follows. -/
def firstPhrase? (phrases : List String) (text : List Char) : Option (String × List Char) :=
  phrases.findSome? fun phrase => (afterPhrase? phrase.toList text).map (phrase, ·)

/-- Cuts a text at separators, from left to right. `width before rest` is the length of the
separator at the front of `rest`, or zero, where `before` is the character in front of it;
`skip` characters of a separator are still to be passed over. -/
def cut (width : Option Char → List Char → Nat) :
    (before : Option Char) → (skip : Nat) → List Char → List (List Char)
  | _, _, [] => [[]]
  | _, skip + 1, c :: cs => cut width (some c) skip cs
  | before, 0, c :: cs =>
    match width before (c :: cs) with
    | k + 1 => [] :: cut width (some c) k cs
    | 0 =>
      match cut width (some c) 0 cs with
      | [] => [[c]]
      | piece :: pieces => (c :: piece) :: pieces

end SimplexTableau.Text
