import Chip8.Json
import Chip8.Json.Text

/-!
# The texts of JSON values

One value can be written in many ways: with blanks between its parts, with characters of a string
escaped or not, and a number that has no value here with any digits at all.  `Json.IsText` says
which texts are texts of a value, production by production, and has nothing to do with how a text is
read.
-/

namespace Chip8

namespace Json

/-- Nothing but blanks. -/
def Blanks (s : List Char) : Prop :=
  ∀ c ∈ s, c ∈ [' ', '\t', '\n', '\r']

/-! ## Numbers -/

/-- One decimal digit or more. -/
def Digits (s : List Char) : Prop :=
  s ≠ [] ∧ ∀ c ∈ s, c.isDigit = true

/-- The digits of a whole number, which begins with a zero only if it is zero. -/
def Whole (s : List Char) : Prop :=
  Digits s ∧ (s.head? = some '0' → s = ['0'])

/-- A fraction, or nothing in place of one. -/
inductive Fraction : List Char → Prop
  | absent : Fraction []
  | digits {s : List Char} : Digits s → Fraction ('.' :: s)

/-- An exponent, or nothing in place of one. -/
inductive Exponent : List Char → Prop
  | absent : Exponent []
  | digits {e : Char} {sign s : List Char} :
      e ∈ ['e', 'E'] → sign ∈ [[], ['+'], ['-']] → Digits s → Exponent (e :: (sign ++ s))

/-- The texts of a number.  A natural number is written by its decimal digits and nothing else; a
number that has no value here has a sign, a fraction or an exponent. -/
inductive NumberText : Option Nat → List Char → Prop
  | natural (n : Nat) : NumberText (some n) (Nat.toDigits 10 n)
  | other {sign whole fraction exponent : List Char} :
      sign ∈ [[], ['-']] → Whole whole → Fraction fraction → Exponent exponent →
      sign ++ fraction ++ exponent ≠ [] →
      NumberText none (sign ++ (whole ++ (fraction ++ exponent)))

/-! ## Strings -/

/-- The texts of one piece of a string.  A control character, a quote and a backslash do not stand
for themselves. -/
inductive PieceText : Piece → List Char → Prop
  | plain {c : Char} : 0x20 ≤ c.toNat → c ≠ '\"' → c ≠ '\\' → PieceText (.char c) [c]
  | letter {letter c : Char} : letterEscape? letter = some c → PieceText (.char c) ['\\', letter]
  | unit {a b c d : Char} {value : Nat} :
      unitValue? a b c d = some value → PieceText (.unit value) ['\\', 'u', a, b, c, d]

/-- The texts of some pieces one after the other. -/
inductive PiecesText : List Piece → List Char → Prop
  | nil : PiecesText [] []
  | cons {piece : Piece} {pieces : List Piece} {s rest : List Char} :
      PieceText piece s → PiecesText pieces rest → PiecesText (piece :: pieces) (s ++ rest)

/-- The texts of a string, quotes included. -/
def StringText (value : Option String) (s : List Char) : Prop :=
  ∃ pieces body, PiecesText pieces body ∧ (joinPieces? pieces).map String.ofList = value ∧
    s = '\"' :: (body ++ ['\"'])

/-! ## Values -/

mutual

/-- The texts of a value with no blanks around it. -/
inductive ValueText : Json → List Char → Prop
  | null : ValueText null ['n', 'u', 'l', 'l']
  | true : ValueText (bool true) ['t', 'r', 'u', 'e']
  | false : ValueText (bool false) ['f', 'a', 'l', 's', 'e']
  | number {value : Option Nat} {s : List Char} :
      NumberText value s → ValueText (number value) s
  | string {value : Option String} {s : List Char} :
      StringText value s → ValueText (string value) s
  | emptyArray {blanks : List Char} :
      Blanks blanks → ValueText (array []) ('[' :: (blanks ++ [']']))
  | array {items : List Json} {s : List Char} :
      ItemsText items s → ValueText (array items) ('[' :: (s ++ [']']))
  | emptyObject {blanks : List Char} :
      Blanks blanks → ValueText (object []) ('{' :: (blanks ++ ['}']))
  | object {members : List (Option String × Json)} {s : List Char} :
      MembersText members s → ValueText (object members) ('{' :: (s ++ ['}']))

/-- The texts of a value between blanks. -/
inductive PaddedText : Json → List Char → Prop
  | padded {j : Json} {before s after : List Char} :
      Blanks before → ValueText j s → Blanks after → PaddedText j (before ++ (s ++ after))

/-- The texts of the items of an array, of which there is one at least. -/
inductive ItemsText : List Json → List Char → Prop
  | last {item : Json} {s : List Char} : PaddedText item s → ItemsText [item] s
  | next {item : Json} {items : List Json} {s rest : List Char} :
      PaddedText item s → ItemsText items rest → ItemsText (item :: items) (s ++ ',' :: rest)

/-- The texts of the members of an object, of which there is one at least. -/
inductive MembersText : List (Option String × Json) → List Char → Prop
  | last {key : Option String} {value : Json} {before k after s : List Char} :
      Blanks before → StringText key k → Blanks after → PaddedText value s →
      MembersText [(key, value)] (before ++ (k ++ (after ++ ':' :: s)))
  | next {key : Option String} {value : Json} {members : List (Option String × Json)}
      {before k after s rest : List Char} :
      Blanks before → StringText key k → Blanks after → PaddedText value s →
      MembersText members rest →
      MembersText ((key, value) :: members) (before ++ (k ++ (after ++ ':' :: (s ++ ',' :: rest))))

end

/-- A text is one of a value: it writes the value down, with blanks around it and nothing else. -/
def IsText (j : Json) (text : String) : Prop :=
  PaddedText j text.toList

end Json

end Chip8
