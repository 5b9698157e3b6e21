/-! Chance: a stream of random words fixed by a seed. A word is found by its place in the stream,
with the ChaCha block function of twelve rounds under a key that is spread from the seed. -/

namespace Walkthrough.Chance

/-- The state from which the next word of a key is made. -/
def nextKeyState (state : UInt64) : UInt64 :=
  state * 6364136223846793005 + 11634580027462260723

/-- The word that a state gives: its high bits, shifted over themselves and turned. -/
def keyWord (state : UInt64) : UInt32 :=
  let folded : UInt32 := (((state >>> 18) ^^^ state) >>> 27).toUInt32
  let turn : UInt32 := (state >>> 59).toUInt32
  (folded >>> turn) ||| (folded <<< (32 - turn))

/-- So many words of the key that a seed stands for. -/
def keyWords : Nat → UInt64 → List UInt32
  | 0, _ => []
  | count + 1, state =>
    let next := nextKeyState state
    keyWord next :: keyWords count next

def rotateLeft (x : UInt32) (turn : UInt32) : UInt32 :=
  (x <<< turn) ||| (x >>> (32 - turn))

abbrev Words := Array UInt32

def Words.at (s : Words) (i : Nat) : UInt32 :=
  s.getD i 0

/-- Adds word `b` to word `a`, mixes the sum into word `d`, and turns that. -/
def mix (s : Words) (a b d : Nat) (turn : UInt32) : Words :=
  let sum := s.at a + s.at b
  (s.setIfInBounds a sum).setIfInBounds d (rotateLeft (s.at d ^^^ sum) turn)

def quarterRound (s : Words) (a b c d : Nat) : Words :=
  let s := mix s a b d 16
  let s := mix s c d b 12
  let s := mix s a b d 8
  mix s c d b 7

/-- A round over the columns, then one over the diagonals. -/
def doubleRound (s : Words) : Words :=
  let s := quarterRound s 0 4 8 12
  let s := quarterRound s 1 5 9 13
  let s := quarterRound s 2 6 10 14
  let s := quarterRound s 3 7 11 15
  let s := quarterRound s 0 5 10 15
  let s := quarterRound s 1 6 11 12
  let s := quarterRound s 2 7 8 13
  quarterRound s 3 4 9 14

/-- The constants, the key, and the number of the block; the stream has no other number. -/
def start (seed : UInt64) (block : UInt64) : Words :=
  let constants : List UInt32 := [0x61707865, 0x3320646e, 0x79622d32, 0x6b206574]
  let number : List UInt32 := [block.toUInt32, (block >>> 32).toUInt32, 0, 0]
  (constants ++ keyWords 8 seed ++ number).toArray

def block (seed : UInt64) (number : UInt64) : Words :=
  let s := start seed number
  Array.zipWith (· + ·) s (Nat.repeat doubleRound 6 s)

/-- The random word at a place of the stream; a block holds eight of them, low half first. -/
def word (seed : UInt64) (place : Nat) : UInt64 :=
  let words := block seed (UInt64.ofNat (place / 8))
  let i := 2 * (place % 8)
  (words.at (i + 1)).toUInt64 <<< 32 ||| (words.at i).toUInt64

def wordCount : Nat := 0x10000000000000000

/-- The largest low half with which a scaled word is taken: words above it would favour some
numbers of the range over others. -/
def zone (range : Nat) : Nat :=
  (range <<< (63 - range.log2)) - 1

/-- A number below `range` from the words at a place and after it, and the place after the last word
used. A word is passed over with a chance below one half; of a row of `rounds` words that are all
passed over, the one after them is taken as it is. -/
def below (seed : UInt64) (range : Nat) : Nat → Nat → Nat × Nat
  | 0, place => ((word seed place).toNat * range / wordCount, place + 1)
  | rounds + 1, place =>
    let scaled := (word seed place).toNat * range
    if scaled % wordCount ≤ zone range then (scaled / wordCount, place + 1)
    else below seed range rounds (place + 1)

/-- How many words in a row may be passed over. -/
def patience : Nat := 256

end Walkthrough.Chance
