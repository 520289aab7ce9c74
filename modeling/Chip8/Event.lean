import Chip8.Fault
import Chip8.Instruction
import Chip8.Keypad
import Chip8.Record

/-!
# Events

While it works the machine tells the outside two kinds of thing: the speaker hears when the tone
starts and stops, and the log is given notes.  A note is a cause and what was known about it;
`Note.record` puts it into words.
-/

namespace Chip8

/-- What a speaker hears. -/
inductive Tone where
  | start
  | stop
deriving DecidableEq

/-- What the machine has to say about its work. -/
inductive Note where
  | reset
  | loaded (length : Nat)
  /-- The word at `pc` is about to be carried out as an instruction. -/
  | executing (pc word : UInt16) (i : Instruction UInt8)
  /-- The word at `pc` is no instruction and was passed over. -/
  | skipped (pc word : UInt16)
  | machineCall (addr : UInt16)
  | waiting (x : Register)
  | resolved (x : Register) (key : Key)
  | cancelled (x : Register)
  /-- The tone will sound for a number of ticks. -/
  | toneStarted (ticks : UInt8)
  /-- The sound timer ran out. -/
  | toneEnded
  /-- The sound timer was set to zero before it ran out. -/
  | toneCut
  | halted (pc : UInt16) (fault : Fault)
deriving DecidableEq

namespace Note

def record : Note → Record
  | reset => ⟨.debug, "reset interpreter", []⟩
  | loaded length => ⟨.debug, "loaded program", [("bytes", toString length)]⟩
  | executing pc word i =>
    ⟨.trace, "execute", [("pc", wordText pc), ("opcode", wordText word), ("op", i.listing)]⟩
  | skipped pc word =>
    ⟨.warning, "skipping unrecognized opcode", [("pc", wordText pc), ("opcode", wordText word)]⟩
  | machineCall addr =>
    ⟨.warning, "ignoring machine code call", [("addr", hexText 3 addr.toNat)]⟩
  | waiting x => ⟨.debug, "waiting on key press", [("register", toString x.val)]⟩
  | resolved x key =>
    ⟨.debug, "key wait resolved", [("register", toString x.val), ("key", toString key.val)]⟩
  | cancelled x => ⟨.debug, "key wait cancelled", [("register", toString x.val)]⟩
  | toneStarted ticks => ⟨.debug, "tone start", [("ticks", toString ticks.toNat)]⟩
  | toneEnded => ⟨.debug, "tone stop", []⟩
  | toneCut => ⟨.debug, "tone stop", [("cause", "timer overwritten")]⟩
  | halted pc fault => ⟨.error, "halting", [("pc", wordText pc), ("error", fault.message)]⟩

end Note

inductive Event where
  | tone (tone : Tone)
  | note (note : Note)
deriving DecidableEq

namespace Event

def tone? : Event → Option Tone
  | tone t => some t
  | note _ => none

def note? : Event → Option Note
  | tone _ => none
  | note n => some n

end Event

end Chip8
