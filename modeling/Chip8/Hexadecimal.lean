/-!
# Hexadecimal text

Addresses and instruction words are written as `0x` and upper-case digits, with zeros put in front
of a short number so that a column of them lines up.
-/

namespace Chip8

/-- The upper-case hexadecimal digits of a number, the most significant first. -/
def hexDigits (n : Nat) : List Char :=
  (Nat.toDigits 16 n).map Char.toUpper

/-- A number as `0x` and at least `width` hexadecimal digits. -/
def hexText (width n : Nat) : String :=
  "0x" ++ String.ofList ((hexDigits n).leftpad width '0')

/-- The text of a 16-bit word: `0x` and four digits. -/
def wordText (word : UInt16) : String :=
  hexText 4 word.toNat

end Chip8
