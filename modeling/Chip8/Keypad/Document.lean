import Chip8.Json.Fields
import Chip8.Keypad

/-!
# Recorded keys

A key is recorded as its bare name.
-/

namespace Chip8

namespace Key

/-- The key with a given name, if there is one. -/
def ofName? (text : String) : Option Key :=
  all.find? fun key => name key == text

/-- The document of a key. -/
def toJson (key : Key) : Json :=
  .ofString (name key)

/-- Read a recorded key. -/
def ofJson? (j : Json) : Option Key := do
  ofName? (← j.bareVariant?)

end Key

end Chip8
