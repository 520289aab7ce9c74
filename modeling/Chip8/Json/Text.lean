/-!
# The text of strings

Between its quotes a string is written as pieces: a character stands for itself, and a backslash
starts an escape, which is either one letter or `u` with the four hexadecimal digits of a 16-bit
unit.  A character outside the first 65536 may be escaped as two units, a high and a low surrogate;
a surrogate by itself is no character.
-/

namespace Chip8

namespace Json

/-- One piece of a string as it is written. -/
inductive Piece where
  | char (c : Char)
  /-- A 16-bit unit written by its digits. -/
  | unit (value : Nat)
deriving DecidableEq

/-- The value of a hexadecimal digit in either case. -/
def hexValue? (c : Char) : Option Nat :=
  if '0' ≤ c ∧ c ≤ '9' then some (c.toNat - '0'.toNat)
  else if 'a' ≤ c ∧ c ≤ 'f' then some (c.toNat - 'a'.toNat + 10)
  else if 'A' ≤ c ∧ c ≤ 'F' then some (c.toNat - 'A'.toNat + 10)
  else none

/-- The value of four hexadecimal digits. -/
def unitValue? (a b c d : Char) : Option Nat := do
  return ((← hexValue? a) * 16 + (← hexValue? b)) * 256 + (← hexValue? c) * 16 + (← hexValue? d)

/-- The character that an escape of one letter stands for. -/
def letterEscape? : Char → Option Char
  | '\"' => some '\"'
  | '\\' => some '\\'
  | '/' => some '/'
  | 'b' => some '\x08'
  | 'f' => some '\x0c'
  | 'n' => some '\n'
  | 'r' => some '\r'
  | 't' => some '\t'
  | _ => none

/-- The pieces up to the closing quote, and what follows the quote.  A control character must be
escaped. -/
def scanPieces : List Char → Option (List Piece × List Char)
  | '\"' :: rest => some ([], rest)
  | '\\' :: 'u' :: a :: b :: c :: d :: rest => do
    let value ← unitValue? a b c d
    let (pieces, rest) ← scanPieces rest
    return (.unit value :: pieces, rest)
  | '\\' :: letter :: rest => do
    let c ← letterEscape? letter
    let (pieces, rest) ← scanPieces rest
    return (.char c :: pieces, rest)
  | c :: rest => do
    if c.toNat < 0x20 ∨ c = '\\' then none
    let (pieces, rest) ← scanPieces rest
    return (.char c :: pieces, rest)
  | [] => none

/-- The units that may stand first in a surrogate pair. -/
def isHighSurrogate (unit : Nat) : Bool :=
  0xD800 ≤ unit && unit ≤ 0xDBFF

/-- The units that may stand second in a surrogate pair. -/
def isLowSurrogate (unit : Nat) : Bool :=
  0xDC00 ≤ unit && unit ≤ 0xDFFF

/-- The characters that pieces stand for, unless there is a surrogate without its partner. -/
def joinPieces? : List Piece → Option (List Char)
  | [] => some []
  | .char c :: rest => (joinPieces? rest).map (c :: ·)
  | .unit high :: .unit low :: rest =>
    if isHighSurrogate high && isLowSurrogate low then
      (joinPieces? rest).map
        (Char.ofNat (0x10000 + (high - 0xD800) * 0x400 + (low - 0xDC00)) :: ·)
    else if isHighSurrogate high || isLowSurrogate high then none
    else (joinPieces? (.unit low :: rest)).map (Char.ofNat high :: ·)
  | .unit value :: rest =>
    if isHighSurrogate value || isLowSurrogate value then none
    else (joinPieces? rest).map (Char.ofNat value :: ·)

end Json

end Chip8
