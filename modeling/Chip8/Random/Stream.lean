import Chip8.Random.Block

/-!
# The random stream

A seed determines an endless stream of 32-bit words: the words of block 0, then those of block 1,
and so on, under a key that the seed is stretched to.  A `Stream` is the key and the number of
words already drawn.
-/

namespace Chip8

namespace Random

/-- Stretch a seed to words: each step moves a 64-bit congruential state on, then folds its upper
bits into 32 and turns the result by the uppermost five. -/
def stretch : Nat → UInt64 → List UInt32
  | 0, _ => []
  | count + 1, state =>
    let state := state * 6364136223846793005 + 11634580027462260723
    let folded := (((state >>> 18) ^^^ state) >>> 27).toUInt32
    let turn := (state >>> 59).toUInt32
    ((folded >>> turn) ||| (folded <<< (32 - turn))) :: stretch count state

/-- The key of a seed. -/
def keyOfSeed (seed : UInt64) : CipherKey :=
  Vector.ofFn fun i => (stretch 8 seed)[i.val]?.getD 0

/-- Word `n` of the stream under a key. -/
def wordAt (key : CipherKey) (n : Nat) : UInt32 :=
  (Block.output key (UInt64.ofNat (n / 16)))[n % 16]?.getD 0

/-- A stream of random words and how far it has been drawn. -/
structure Stream where
  key : CipherKey
  drawn : Nat
deriving DecidableEq

namespace Stream

/-- The stream of a seed, none of it drawn. -/
def ofSeed (seed : UInt64) : Stream where
  key := keyOfSeed seed
  drawn := 0

/-- Draw one word and keep its last byte. -/
def nextByte (s : Stream) : UInt8 × Stream :=
  ((wordAt s.key s.drawn).toUInt8, { s with drawn := s.drawn + 1 })

end Stream

end Random

end Chip8
