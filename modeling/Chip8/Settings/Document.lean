import Chip8.Json.Fields
import Chip8.Settings

/-!
# Documents of settings

A document gives some of the settings, and the others keep their defaults.  The seed and the number
of cycles may be given as null, which says that there is none.
-/

namespace Chip8

/-- Read a severity, which is written as its bare name. -/
def Severity.ofJson? (j : Json) : Option Severity := do
  Severity.ofName? (← j.bareVariant?)

namespace Settings

/-- The names of the settings, in their order. -/
def fieldNames : List String :=
  ["log_level", "rng_seed", "cycles_per_frame", "max_cycles"]

/-- Read a field that may be left out. -/
def readOr {α : Type} (fallback : α) (read : Json → Option α) : Option Json → Option α
  | none => some fallback
  | some j => read j

/-- Read a 64-bit number or null. -/
def readLong? (j : Json) : Option (Option UInt64) :=
  (j.nullOrBelow? UInt64.size).map fun n => n.map UInt64.ofNat

/-- Read a 32-bit number. -/
def readCount? (j : Json) : Option UInt32 :=
  (j.below? UInt32.size).map UInt32.ofNat

/-- Read a document of settings. -/
def ofJson? (j : Json) : Option Settings :=
  match j.fields? fieldNames with
  | some [logLevel, seed, cyclesPerFrame, maxCycles] => do
    return {
      logLevel := ← readOr default.logLevel Severity.ofJson? logLevel
      seed := ← readOr default.seed readLong? seed
      cyclesPerFrame := ← readOr default.cyclesPerFrame readCount? cyclesPerFrame
      maxCycles := ← readOr default.maxCycles readLong? maxCycles }
  | _ => none

/-- The values of the settings as they are written, in their order. -/
def fieldValues (s : Settings) : List Json :=
  [.ofString s.logLevel.name, .ofNat? (s.seed.map UInt64.toNat), .ofNat s.cyclesPerFrame.toNat,
    .ofNat? (s.maxCycles.map UInt64.toNat)]

/-- The document that gives all settings. -/
def toJson (s : Settings) : Json :=
  .ofFields (fieldNames.zip s.fieldValues)

end Settings

end Chip8
