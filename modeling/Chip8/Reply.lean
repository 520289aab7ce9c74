import Chip8.Fault
import Chip8.Instruction
import Chip8.Keypad

/-!
# Replies

What a host is told when it has asked for something.
-/

namespace Chip8

/-- What became of a step: the instruction carried out if there was one, or a fault. -/
abbrev StepResult :=
  Except Fault (Option (Instruction Register))

/-- The answer to one request of a host. -/
inductive Reply where
  /-- There is nothing to tell. -/
  | done
  | truth (value : Bool)
  | number (value : Nat)
  /-- A key press that was taken, if there was one. -/
  | press (key : Option Key)
  /-- The number of pixels, and whether that is none. -/
  | size (count : Nat) (isEmpty : Bool)
  /-- A request that can fail did so. -/
  | failed (fault : Fault)
  /-- What a cycle came to. -/
  | cycled (result : StepResult)

/-- The reply to a request that has nothing to tell unless it fails. -/
def Reply.ofExcept {α : Type} : Except Fault α → Reply
  | .ok _ => done
  | .error fault => failed fault

end Chip8
