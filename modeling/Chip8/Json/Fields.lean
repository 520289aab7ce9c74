import Chip8.Json

/-!
# Fields and variants

Two ways to write a value of a domain type down.  A value with named fields is an object, whose
members may come in any order among others that nobody knows, or an array of the field values in
the order of the fields.  A value of one of several sorts is the name of the sort, or an object
whose one member has that name and holds the rest.
-/

namespace Chip8

namespace Json

/-- The value of a number below `bound`. -/
def below? (bound : Nat) : Json → Option Nat
  | number (some n) => if n < bound then some n else none
  | _ => none

/-- The value of a number below `bound`, or null for none. -/
def nullOrBelow? (bound : Nat) : Json → Option (Option Nat)
  | null => some none
  | j => (j.below? bound).map some

/-- The value of the first member with a given key. -/
def member? (members : List (Option String × Json)) (key : String) : Option Json :=
  (members.find? fun member => member.1 == some key).map Prod.snd

/-- The values of named fields, in the order of the names, each where it is given.  An object must
have texts as keys and none of the names twice; an array must not be longer than the names. -/
def fields? (names : List String) : Json → Option (List (Option Json))
  | object members =>
    let keys := members.map Prod.fst
    if keys.contains none || names.any fun field => 1 < keys.count (some field) then none
    else some (names.map (member? members))
  | array items =>
    if names.length < items.length then none
    else some ((List.range names.length).map (items[·]?))
  | _ => none

/-- The values of named fields that must all be given as numbers, each below its bound. -/
def naturals? (fields : List (String × Nat)) (j : Json) : Option (List Nat) := do
  let values ← j.fields? (fields.map Prod.fst)
  (values.zip (fields.map Prod.snd)).mapM fun (value, bound) => do (← value).below? bound

/-- The name of the sort of a value, and the rest of it if there is one. -/
def variant? : Json → Option (String × Option Json)
  | string (some name) => some (name, none)
  | object [(some name, body)] => some (name, some body)
  | _ => none

/-- The name of the sort of a value that consists of nothing else: null may stand for the rest. -/
def bareVariant? (j : Json) : Option String :=
  match j.variant? with
  | some (name, none) => some name
  | some (name, some null) => some name
  | _ => none

end Json

end Chip8
