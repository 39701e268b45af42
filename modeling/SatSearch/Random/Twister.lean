import SatSearch.Random.Sample

/-!
# The Mersenne twister

A stream of 32-bit words with a period of `2 ^ 19937 - 1`. `Twister.ofSeed` starts it from an integer, of
which only the absolute value counts; `Twister.next` gives one word.
-/

namespace SatSearch

/-- The state of the stream: its words and the place of the next one to give out. -/
structure Twister where
  words : Array UInt32
  index : Nat

namespace Twister

/-- The number of words of the state. -/
def size : Nat := 624

/-- The mixed word that the initialisations carry from one place to the next. -/
def mixed (w : UInt32) : UInt32 :=
  w ^^^ (w >>> 30)

/-- The words that a single word expands to. -/
def expand (seed : UInt32) : Array UInt32 :=
  (List.range (size - 1)).foldl
    (fun words i => words.push (1812433253 * mixed (words.getD i 0) + (i + 1).toUInt32))
    #[seed]

/-- Where the initialisation stands: the words, the place to change and the place in the key. -/
structure Initialisation where
  words : Array UInt32
  place : Nat
  keyPlace : Nat

/-- Moves to the next place; behind the last one the last word is carried to the front. -/
def Initialisation.advance (s : Initialisation) : Initialisation :=
  if s.place + 1 ≥ size then
    { s with words := s.words.set! 0 (s.words.getD (size - 1) 0), place := 1 }
  else { s with place := s.place + 1 }

/-- Adds one word of the key. -/
def Initialisation.addKey (key : Array UInt32) (s : Initialisation) : Initialisation :=
  let w := (s.words.getD s.place 0 ^^^ (mixed (s.words.getD (s.place - 1) 0) * 1664525)) +
    key.getD s.keyPlace 0 + s.keyPlace.toUInt32
  let keyPlace := if s.keyPlace + 1 ≥ key.size then 0 else s.keyPlace + 1
  advance { s with words := s.words.set! s.place w, keyPlace }

/-- Stirs one word after the key was added. -/
def Initialisation.stir (s : Initialisation) : Initialisation :=
  let w := (s.words.getD s.place 0 ^^^ (mixed (s.words.getD (s.place - 1) 0) * 1566083941)) -
    s.place.toUInt32
  advance { s with words := s.words.set! s.place w }

/-- The state that a key of words starts from. -/
def ofKey (key : Array UInt32) : Twister :=
  let start : Initialisation := { words := expand 19650218, place := 1, keyPlace := 0 }
  let keyed := (List.range (max size key.size)).foldl (fun s _ => s.addKey key) start
  let stirred := (List.range (size - 1)).foldl (fun s _ => s.stir) keyed
  { words := stirred.words.set! 0 0x80000000, index := size }

/-- The 32-bit words of a number, the lowest first. -/
def keyWords (n : Nat) : List UInt32 :=
  if n < UInt32.size then [n.toUInt32]
  else (n % UInt32.size).toUInt32 :: keyWords (n / UInt32.size)
termination_by n
decreasing_by
  have h : UInt32.size ≤ n := Nat.le_of_not_lt ‹_›
  exact Nat.div_lt_self (Nat.lt_of_lt_of_le (by decide) h) (by decide)

/-- The state that an integer starts from. -/
def ofSeed (seed : Int) : Twister :=
  ofKey (keyWords seed.natAbs).toArray

/-- Renews one word from itself, its neighbour and the word 397 places on. -/
def renewWord (words : Array UInt32) (i : Nat) : Array UInt32 :=
  let y := (words.getD i 0 &&& 0x80000000) ||| (words.getD ((i + 1) % size) 0 &&& 0x7fffffff)
  let odd : UInt32 := if y &&& 1 = 0 then 0 else 0x9908b0df
  words.set! i (words.getD ((i + 397) % size) 0 ^^^ (y >>> 1) ^^^ odd)

/-- Renews all words. -/
def renew (words : Array UInt32) : Array UInt32 :=
  (List.range size).foldl renewWord words

/-- Spreads the bits of a word before it is given out. -/
def temper (w : UInt32) : UInt32 :=
  let w := w ^^^ (w >>> 11)
  let w := w ^^^ ((w <<< 7) &&& 0x9d2c5680)
  let w := w ^^^ ((w <<< 15) &&& 0xefc60000)
  w ^^^ (w >>> 18)

/-- The next word. -/
def next (t : Twister) : UInt32 × Twister :=
  let t := if t.index ≥ size then { words := renew t.words, index := 0 } else t
  (temper (t.words.getD t.index 0), { t with index := t.index + 1 })

/-- The greatest number of draws made for one number. -/
def drawLimit : Nat := 100000

/-- The draws of the stream. -/
def draws : Draws Twister :=
  wordDraws next drawLimit

end Twister

end SatSearch
