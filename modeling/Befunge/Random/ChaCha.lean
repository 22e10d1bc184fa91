-- A random source of good quality: the key stream of the ChaCha cipher with twelve
-- rounds, under a key that is given as a whole or spread from one word.
import Befunge.Random.Source

namespace Befunge

/-! ## Blocks -/

namespace ChaCha

/-- A word turned to the left by `n` bits, where `n` is from 1 to 31. -/
def rotateLeft (w n : UInt32) : UInt32 := (w <<< n) ||| (w >>> (32 - n))

/-- The sixteen words that a block is made of. -/
abbrev Words := Vector UInt32 16

/-- The eight words of a key. -/
abbrev Key := Vector UInt32 8

/-- The quarter round on the words with the indices `a`, `b`, `c` and `d`. -/
def quarterRound (s : Words) (a b c d : Fin 16) : Words :=
  let s := s.set a (s[a] + s[b])
  let s := s.set d (rotateLeft (s[d] ^^^ s[a]) 16)
  let s := s.set c (s[c] + s[d])
  let s := s.set b (rotateLeft (s[b] ^^^ s[c]) 12)
  let s := s.set a (s[a] + s[b])
  let s := s.set d (rotateLeft (s[d] ^^^ s[a]) 8)
  let s := s.set c (s[c] + s[d])
  s.set b (rotateLeft (s[b] ^^^ s[c]) 7)

/-- A round on the four columns and then one on the four diagonals. -/
def doubleRound (s : Words) : Words :=
  let s := quarterRound s 0 4 8 12
  let s := quarterRound s 1 5 9 13
  let s := quarterRound s 2 6 10 14
  let s := quarterRound s 3 7 11 15
  let s := quarterRound s 0 5 10 15
  let s := quarterRound s 1 6 11 12
  let s := quarterRound s 2 7 8 13
  quarterRound s 3 4 9 14

/-- The words that a block starts from: four constants, the key, and the number of the block,
its lower half first. -/
def start (key : Key) (number : UInt64) : Words :=
  #v[0x61707865, 0x3320646e, 0x79622d32, 0x6b206574,
    key[0], key[1], key[2], key[3], key[4], key[5], key[6], key[7],
    number.toUInt32, (number >>> 32).toUInt32, 0, 0]

/-- The block with a given number: six double rounds, and the words it started from added. -/
def block (key : Key) (number : UInt64) : Words :=
  let s := start key number
  s.zipWith (· + ·) (Nat.repeat doubleRound 6 s)

/-! ## Keys -/

/-- The state that follows `t` while a key is spread from a seed. -/
def spread (t : UInt64) : UInt64 := t * 6364136223846793005 + 11634580027462260723

/-- The word of the key that a state gives. -/
def keyWord (t : UInt64) : UInt32 :=
  let w := (((t >>> 18) ^^^ t) >>> 27).toUInt32
  let n := (t >>> 59).toUInt32
  (w >>> n) ||| (w <<< ((32 - n) % 32))

/-- The key that is spread from a seed. -/
def keyOf (seed : UInt64) : Key :=
  Vector.ofFn fun i => keyWord (Nat.repeat spread (i.val + 1) seed)

end ChaCha

/-! ## The source -/

/-- The number of words in a key stream: a word holds the number of a block, and there are eight
words to a block. -/
def ChaCha.streamLength : Nat := 8 * UInt64.size

/-- A place in the key stream of a key. -/
structure ChaCha where
  key : ChaCha.Key
  position : Fin ChaCha.streamLength
  deriving DecidableEq

namespace ChaCha

/-- The start of the key stream of a key. -/
def ofKey (key : Key) : ChaCha := ⟨key, ⟨0, by decide⟩⟩

/-- The start of the key stream of a seed. -/
def ofSeed (seed : UInt64) : ChaCha := ofKey (keyOf seed)

/-- The next place of the key stream. After the last one it starts over. -/
def next (s : ChaCha) : ChaCha :=
  { s with position := ⟨(s.position.val + 1) % streamLength, Nat.mod_lt _ (by decide)⟩ }

/-- The word at a place of the key stream. Its lower half comes first in the block. -/
def word (s : ChaCha) : UInt64 :=
  let words := block s.key (UInt64.ofNat (s.position.val / 8))
  let i := 2 * (s.position.val % 8)
  have : s.position.val % 8 < 8 := Nat.mod_lt _ (by decide)
  words[i].toUInt64 + (words[i + 1].toUInt64 <<< 32)

instance : RandomSource ChaCha where
  draw s := (s.word, s.next)
  period := streamLength

end ChaCha

end Befunge
