/-!
# The Mersenne Twister

A generator of 32-bit words with a state of 624 words. It is seeded with a list of words, and
two successive words make a number in the unit interval with 53 binary places.
-/

namespace SimplexTableau.Instance

/-- The state of the generator: its words and how many of them have been given out. -/
structure Twister where
  words : Array UInt32
  used : Nat

namespace Twister

/-- The number of words in a state. -/
def size : Nat := 624

/-- The distance of the words that are combined when the state is renewed. -/
def distance : Nat := 397

/-- A word of a state; positions wrap around. -/
def word (words : Array UInt32) (i : Nat) : UInt32 :=
  words.getD (i % size) 0

/-- The state that spreads one word over all places. -/
def ofWord (seed : UInt32) : Array UInt32 :=
  (List.range (size - 1)).foldl
    (fun words i =>
      let last := word words i
      words.push ((1812433253 : UInt32) * (last ^^^ (last >>> 30)) + UInt32.ofNat (i + 1)))
    #[seed]

/-- Writes a word. The last place is copied to the first one, which is not visited itself. -/
def write (words : Array UInt32) (i : Nat) (value : UInt32) : Array UInt32 :=
  let words := words.setIfInBounds i value
  if i + 1 = size then words.setIfInBounds 0 value else words

/-- The places from 1 to 623, visited in turn. -/
def place (step : Nat) : Nat :=
  step % (size - 1) + 1

/-- Mixes the words of a key into a state. -/
def mixKey (key : Array UInt32) (words : Array UInt32) : Array UInt32 :=
  (List.range (max size key.size)).foldl
    (fun words step =>
      let i := place step
      let j := step % key.size
      let last := word words (i - 1)
      let mixed := (word words i ^^^ ((last ^^^ (last >>> 30)) * 1664525)) +
        key.getD j 0 + UInt32.ofNat j
      write words i mixed)
    words

/-- Mixes a state once more, starting after the last place that the key has reached. -/
def mixPlaces (start : Nat) (words : Array UInt32) : Array UInt32 :=
  (List.range (size - 1)).foldl
    (fun words step =>
      let i := place (start + step)
      let last := word words (i - 1)
      let mixed := (word words i ^^^ ((last ^^^ (last >>> 30)) * 1566083941)) - UInt32.ofNat i
      write words i mixed)
    words

/-- The generator for a key of at least one word. -/
def ofKey (key : Array UInt32) : Twister :=
  let words := mixPlaces (max size key.size) (mixKey key (ofWord 19650218))
  ⟨words.setIfInBounds 0 0x80000000, size⟩

/-- The 32-bit words of a number, lowest first, at most `count` of them. -/
def wordsOf : (count : Nat) → Nat → List UInt32
  | 0, _ => []
  | count + 1, n => UInt32.ofNat n :: if n < 4294967296 then [] else wordsOf count (n / 4294967296)

/-- The generator for a whole number, whose sign does not matter. -/
def ofSeed (seed : Int) : Twister :=
  ofKey (wordsOf (seed.natAbs + 1) seed.natAbs).toArray

/-- Renews all words of a state. -/
def renew (words : Array UInt32) : Array UInt32 :=
  (List.range size).foldl
    (fun words i =>
      let joined := (word words i &&& 0x80000000) ||| (word words (i + 1) &&& 0x7fffffff)
      let twisted := word words (i + distance) ^^^ (joined >>> 1) ^^^
        (if joined &&& 1 = 1 then 0x9908b0df else 0)
      words.setIfInBounds i twisted)
    words

/-- Scrambles the bits of a word before it is given out. -/
def temper (y : UInt32) : UInt32 :=
  let y := y ^^^ (y >>> 11)
  let y := y ^^^ ((y <<< 7) &&& 0x9d2c5680)
  let y := y ^^^ ((y <<< 15) &&& 0xefc60000)
  y ^^^ (y >>> 18)

/-- The next word. -/
def next (t : Twister) : UInt32 × Twister :=
  let t := if t.used < size then t else ⟨renew t.words, 0⟩
  (temper (word t.words t.used), ⟨t.words, t.used + 1⟩)

/-- The next number in the unit interval: 27 bits of one word and 26 of the following one. -/
def unit (t : Twister) : Float × Twister :=
  let (high, t) := t.next
  let (low, t) := t.next
  let bits := (high >>> 5).toNat * 67108864 + (low >>> 6).toNat
  (Float.ofNat bits / 9007199254740992, t)

/-- The next number between two bounds. -/
def uniform (low high : Float) : StateM Twister Float := fun t =>
  let (u, t) := t.unit
  (low + (high - low) * u, t)

end Twister

end SimplexTableau.Instance
