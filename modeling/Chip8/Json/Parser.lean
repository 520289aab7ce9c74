import Chip8.Json
import Chip8.Json.Text

/-!
# Reading JSON

`Json.parse?` reads a text that is one value with blanks around it and nothing else.  The functions
below it take what is left of the text and give a value with what is left after it.
-/

namespace Chip8

namespace Json

/-- The characters that may stand between the parts of a document. -/
def isBlank (c : Char) : Bool :=
  c == ' ' || c == '\t' || c == '\n' || c == '\r'

/-- Leave out the blanks at the front. -/
def skipBlanks (s : List Char) : List Char :=
  s.dropWhile isBlank

/-- The digits at the front, of which there must be one, and what follows them. -/
def scanDigits? (s : List Char) : Option (List Char × List Char) :=
  match s.takeWhile Char.isDigit with
  | [] => none
  | digits => some (digits, s.dropWhile Char.isDigit)

/-- The digits of a whole number: a zero stands alone. -/
def scanWhole? : List Char → Option (List Char × List Char)
  | '0' :: rest => some (['0'], rest)
  | s => scanDigits? s

/-- Leave out a fraction at the front.  The answer says whether there was one. -/
def scanFraction? : List Char → Option (Bool × List Char)
  | '.' :: rest => do return (true, (← scanDigits? rest).2)
  | s => some (false, s)

/-- Leave out the sign of an exponent at the front. -/
def skipSign : List Char → List Char
  | '+' :: rest => rest
  | '-' :: rest => rest
  | s => s

/-- Leave out an exponent at the front.  The answer says whether there was one. -/
def scanExponent? : List Char → Option (Bool × List Char)
  | 'e' :: rest => do return (true, (← scanDigits? (skipSign rest)).2)
  | 'E' :: rest => do return (true, (← scanDigits? (skipSign rest)).2)
  | s => some (false, s)

/-- A number at the front. -/
def scanNumber? (s : List Char) : Option (Json × List Char) := do
  let (isNegative, s) := match s with
    | '-' :: rest => (true, rest)
    | _ => (false, s)
  let (digits, s) ← scanWhole? s
  let (hasFraction, s) ← scanFraction? s
  let (hasExponent, s) ← scanExponent? s
  if isNegative || hasFraction || hasExponent then return (number none, s)
  return (ofNat (Nat.ofDigitChars 10 digits 0), s)

/-- The value of a string whose opening quote has been read. -/
def scanString? (s : List Char) : Option (Option String × List Char) := do
  let (pieces, s) ← scanPieces s
  return ((joinPieces? pieces).map String.ofList, s)

mutual

/-- A value at the front, with blanks before it. -/
def scanValue? : Nat → List Char → Option (Json × List Char)
  | 0, _ => none
  | fuel + 1, s =>
    match skipBlanks s with
    | 'n' :: 'u' :: 'l' :: 'l' :: rest => some (null, rest)
    | 't' :: 'r' :: 'u' :: 'e' :: rest => some (bool true, rest)
    | 'f' :: 'a' :: 'l' :: 's' :: 'e' :: rest => some (bool false, rest)
    | '\"' :: rest => do
      let (value, rest) ← scanString? rest
      return (string value, rest)
    | '[' :: rest =>
      match skipBlanks rest with
      | ']' :: rest => some (array [], rest)
      | rest => do
        let (items, rest) ← scanItems? fuel rest
        return (array items, rest)
    | '{' :: rest =>
      match skipBlanks rest with
      | '}' :: rest => some (object [], rest)
      | rest => do
        let (members, rest) ← scanMembers? fuel rest
        return (object members, rest)
    | rest => scanNumber? rest

/-- The items of an array, of which there is one at least, up to and with the closing bracket. -/
def scanItems? : Nat → List Char → Option (List Json × List Char)
  | 0, _ => none
  | fuel + 1, s => do
    let (item, rest) ← scanValue? fuel s
    match skipBlanks rest with
    | ',' :: rest =>
      let (items, rest) ← scanItems? fuel rest
      return (item :: items, rest)
    | ']' :: rest => return ([item], rest)
    | _ => none

/-- The members of an object, of which there is one at least, up to and with the closing brace. -/
def scanMembers? : Nat → List Char → Option (List (Option String × Json) × List Char)
  | 0, _ => none
  | fuel + 1, s => do
    match skipBlanks s with
    | '\"' :: rest =>
      let (key, rest) ← scanString? rest
      match skipBlanks rest with
      | ':' :: rest =>
        let (value, rest) ← scanValue? fuel rest
        match skipBlanks rest with
        | ',' :: rest =>
          let (members, rest) ← scanMembers? fuel rest
          return ((key, value) :: members, rest)
        | '}' :: rest => return ([(key, value)], rest)
        | _ => none
      | _ => none
    | _ => none

end

/-- Read a document.  A value takes no more calls than twice the characters it is written with. -/
def parse? (text : String) : Option Json := do
  let s := text.toList
  let (value, rest) ← scanValue? (2 * s.length + 2) s
  if skipBlanks rest = [] then return value else none

end Json

end Chip8
