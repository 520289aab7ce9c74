/-!
# Cipher blocks

The random words come from the ChaCha block function with twenty rounds: sixteen 32-bit words,
four of them constant, eight from the key, two from the number of the block and two from the
number of the stream, are mixed and added to what they were before.
-/

namespace Chip8

namespace Random

/-- The words that a block is mixed from and the words that it consists of. -/
abbrev Block := Vector UInt32 16

/-- Eight words, from which every block of a stream is made. -/
abbrev CipherKey := Vector UInt32 8

/-- Move the bits of a word to the left by `count`, those shifted out coming back on the right. -/
def rotateLeft (word : UInt32) (count : UInt32) : UInt32 :=
  (word <<< count) ||| (word >>> (32 - count))

namespace Block

/-- Mix the words at four places. -/
def quarterRound (b : Block) (i j k l : Fin 16) : Block :=
  let w := b[i]
  let x := b[j]
  let y := b[k]
  let z := b[l]
  let w := w + x
  let z := rotateLeft (z ^^^ w) 16
  let y := y + z
  let x := rotateLeft (x ^^^ y) 12
  let w := w + x
  let z := rotateLeft (z ^^^ w) 8
  let y := y + z
  let x := rotateLeft (x ^^^ y) 7
  (((b.set i.val w).set j.val x).set k.val y).set l.val z

/-- One round on the columns and one on the diagonals of the words laid out in a square. -/
def doubleRound (b : Block) : Block :=
  let b := b.quarterRound 0 4 8 12
  let b := b.quarterRound 1 5 9 13
  let b := b.quarterRound 2 6 10 14
  let b := b.quarterRound 3 7 11 15
  let b := b.quarterRound 0 5 10 15
  let b := b.quarterRound 1 6 11 12
  let b := b.quarterRound 2 7 8 13
  b.quarterRound 3 4 9 14

/-- The words that the block with a given number is mixed from: the constants, the key, the number
in two halves, and stream zero. -/
def input (key : CipherKey) (number : UInt64) : Block :=
  #v[0x61707865, 0x3320646E, 0x79622D32, 0x6B206574,
    key[0], key[1], key[2], key[3], key[4], key[5], key[6], key[7],
    number.toUInt32, (number >>> 32).toUInt32, 0, 0]

/-- The block with a given number: ten double rounds, added to the words they started from. -/
def output (key : CipherKey) (number : UInt64) : Block :=
  let start := input key number
  let mixed := (List.range 10).foldl (fun b _ => b.doubleRound) start
  Vector.zipWith (· + ·) mixed start

end Block

end Random

end Chip8
