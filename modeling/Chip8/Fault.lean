import Chip8.Hexadecimal

/-!
# Faults

A fault is the reason why a program cannot be loaded or cannot go on.  Each constructor is one
cause and holds what the report of it names; the wording is in `Fault.message` alone.
-/

namespace Chip8

/-- Why a program image could not be read from storage. -/
inductive ReadFailure where
  | notFound
  | isDirectory
  | notDirectory
  | accessDenied
  | nameTooLong
  /-- Anything else, in the system's words. -/
  | other (reason : String)
deriving DecidableEq

/-- The system's wording of a failed read, with its number. -/
def ReadFailure.message : ReadFailure → String
  | .notFound => "No such file or directory (os error 2)"
  | .isDirectory => "Is a directory (os error 21)"
  | .notDirectory => "Not a directory (os error 20)"
  | .accessDenied => "Permission denied (os error 13)"
  | .nameTooLong => "File name too long (os error 36)"
  | .other reason => reason

/-- Everything that can go wrong while a program is loaded, decoded or run. -/
inductive Fault where
  /-- A program image of `length` bytes is larger than the `capacity` left for programs. -/
  | loadCapacity (length capacity : Nat)
  /-- The two bytes at the program counter are not both in memory. -/
  | fetchOutOfBounds (pc : UInt16)
  /-- The subroutine call at `pc` finds every level of the call stack in use. -/
  | stackOverflow (pc : UInt16)
  /-- The subroutine return at `pc` finds no call to return from. -/
  | stackUnderflow (pc : UInt16)
  /-- An instruction reads or writes memory at `address`, which is past its end. -/
  | memoryOutOfBounds (address : Nat)
  /-- No instruction is written as `word`. -/
  | unrecognizedOpcode (word : UInt16)
  /-- The program image could not be read. -/
  | unreadable (failure : ReadFailure)
  /-- No log could be set up. -/
  | noLogger (reason : String)
deriving DecidableEq

namespace Fault

/-- The report of a fault. -/
def message : Fault → String
  | loadCapacity length capacity =>
    "program is " ++ toString length ++ " bytes but only " ++ toString capacity ++
      " bytes are available from 0x200"
  | fetchOutOfBounds pc => "program counter " ++ wordText pc ++ " points outside of memory"
  | stackOverflow pc => "call at " ++ wordText pc ++ " exceeds the 16 level call stack"
  | stackUnderflow pc => "return at " ++ wordText pc ++ " with an empty call stack"
  | memoryOutOfBounds address =>
    "memory access at " ++ hexText 4 address ++ " is outside of memory"
  | unrecognizedOpcode word => "unrecognized opcode " ++ wordText word
  | unreadable failure => "unable to read game file: " ++ failure.message
  | noLogger reason => "unable to build logger: " ++ reason

/-- A run can go on after an unrecognized opcode, and after no other fault. -/
def isFatal : Fault → Bool
  | unrecognizedOpcode _ => false
  | _ => true

end Fault

end Chip8
