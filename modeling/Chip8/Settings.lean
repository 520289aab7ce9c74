import Chip8.Record

/-!
# Settings

What a host can choose when it sets up an emulator.
-/

namespace Chip8

/-- The choices of a host. -/
structure Settings where
  /-- The least severity that the log shows. -/
  logLevel : Severity
  /-- Where the random stream starts; without a seed it starts anywhere. -/
  seed : Option UInt64
  /-- The cycles between two looks at the display. -/
  cyclesPerFrame : UInt32
  /-- The cycles after which a run stops; without a number it goes on. -/
  maxCycles : Option UInt64
deriving DecidableEq

namespace Settings

/-- The settings of a host that chooses nothing. -/
def default : Settings where
  logLevel := .info
  seed := none
  cyclesPerFrame := 10
  maxCycles := none

end Settings

end Chip8
