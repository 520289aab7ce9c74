/-!
# JSON values

The documents of this library hold names, natural numbers, truth values and null, in arrays and
objects.  JSON can write more than that: a number with a sign, a fraction or an exponent, and a
string with half of a surrogate pair.  Such a number or string is well-formed, so a document may
contain it where nobody looks at it, but it has no value here.
-/

namespace Chip8

/-- A JSON value.  The members of an object are in the order in which they were written. -/
inductive Json where
  | null
  | bool (value : Bool)
  /-- A number, with its value if it is written as a natural number. -/
  | number (value : Option Nat)
  /-- A string, with its value if it is text. -/
  | string (value : Option String)
  | array (items : List Json)
  | object (members : List (Option String × Json))
deriving Inhabited

namespace Json

/-- A natural number. -/
def ofNat (n : Nat) : Json :=
  number (some n)

/-- A text. -/
def ofString (text : String) : Json :=
  string (some text)

/-- A natural number, or null in place of a missing one. -/
def ofNat? (n : Option Nat) : Json :=
  n.elim null ofNat

/-- An object with texts as keys. -/
def ofFields (fields : List (String × Json)) : Json :=
  object (fields.map fun (key, value) => (some key, value))

end Json

end Chip8
