import Chip8.Json

/-!
# Writing JSON

`Json.print` writes a value without any blanks.  A number or a string that has no value here is
written as the shortest one of its sort.
-/

namespace Chip8

namespace Json

/-- The hexadecimal digit of a number below sixteen, in lower case. -/
def lowerDigit (n : Nat) : Char :=
  Nat.digitChar n

/-- A character as it is written between quotes. -/
def escape (c : Char) : List Char :=
  if c = '\"' then ['\\', '\"']
  else if c = '\\' then ['\\', '\\']
  else if c = '\x08' then ['\\', 'b']
  else if c = '\x0c' then ['\\', 'f']
  else if c = '\n' then ['\\', 'n']
  else if c = '\r' then ['\\', 'r']
  else if c = '\t' then ['\\', 't']
  else if c.toNat < 0x20 then
    ['\\', 'u', '0', '0', lowerDigit (c.toNat / 16), lowerDigit (c.toNat % 16)]
  else [c]

/-- A string in its quotes. -/
def renderString : Option String → List Char
  | some text => '\"' :: text.toList.flatMap escape ++ ['\"']
  | none => ['\"', '\\', 'u', 'd', '8', '0', '0', '\"']

/-- A number. -/
def renderNumber : Option Nat → List Char
  | some n => Nat.toDigits 10 n
  | none => ['-', '0']

mutual

/-- A value. -/
def render : Json → List Char
  | null => ['n', 'u', 'l', 'l']
  | bool true => ['t', 'r', 'u', 'e']
  | bool false => ['f', 'a', 'l', 's', 'e']
  | number value => renderNumber value
  | string value => renderString value
  | array items => '[' :: renderItems items ++ [']']
  | object members => '{' :: renderMembers members ++ ['}']

/-- The items of an array with commas between them. -/
def renderItems : List Json → List Char
  | [] => []
  | [item] => render item
  | item :: items => render item ++ ',' :: renderItems items

/-- The members of an object with commas between them. -/
def renderMembers : List (Option String × Json) → List Char
  | [] => []
  | [(key, value)] => renderString key ++ ':' :: render value
  | (key, value) :: members =>
    renderString key ++ ':' :: render value ++ ',' :: renderMembers members

end

/-- The text of a value. -/
def print (j : Json) : String :=
  String.ofList j.render

end Json

end Chip8
