/-!
# Operations

Apart from clearing the screen, returning from a subroutine and drawing, an operation is of one of
four kinds, told apart by the operands it takes: an address, a register and a byte, two registers,
or one register.  Each kind lists its members and names them as recorded instructions do.
-/

namespace Chip8

/-- The operations on an address. -/
inductive AddressOp where
  /-- Call a routine in the host's own machine code, which is passed over. -/
  | machineCall
  | jump
  | call
  | setIndex
  /-- Jump to the address plus V0. -/
  | jumpOffset
deriving DecidableEq

/-- The operations on a register and a byte. -/
inductive ByteOp where
  | skipEq
  | skipNe
  | load
  /-- Add without touching the flag. -/
  | add
  /-- Load a random byte masked by the byte. -/
  | random
deriving DecidableEq

/-- The operations on two registers, of which the first is the one written. -/
inductive PairOp where
  | skipEq
  | skipNe
  | copy
  | or
  | and
  | xor
  /-- Add; the flag is the carry. -/
  | add
  /-- Subtract the second from the first; the flag says that nothing was borrowed. -/
  | sub
  /-- Subtract the first from the second; the flag says that nothing was borrowed. -/
  | subFrom
deriving DecidableEq

/-- The operations on one register. -/
inductive RegisterOp where
  /-- Shift right by one bit; the flag is the bit shifted out. -/
  | shiftRight
  /-- Shift left by one bit; the flag is the bit shifted out. -/
  | shiftLeft
  | skipKeyDown
  | skipKeyUp
  | readDelay
  | waitKey
  | setDelay
  | setSound
  | addIndex
  /-- Point the index register at the glyph of the register's low digit. -/
  | glyph
  /-- Write the three decimal digits of the register to memory. -/
  | decimal
  /-- Copy V0 up to the register to memory. -/
  | store
  /-- Copy memory to V0 up to the register. -/
  | fetch
deriving DecidableEq

namespace AddressOp

def all : List AddressOp :=
  [machineCall, jump, call, setIndex, jumpOffset]

def name : AddressOp → String
  | machineCall => "CallRca"
  | jump => "Goto"
  | call => "CallSub"
  | setIndex => "SetI"
  | jumpOffset => "GotoPlusV0"

end AddressOp

namespace ByteOp

def all : List ByteOp :=
  [skipEq, skipNe, load, add, random]

def name : ByteOp → String
  | skipEq => "CondVxEq"
  | skipNe => "CondVxNe"
  | load => "ConstSetVx"
  | add => "ConstAddVx"
  | random => "Rand"

end ByteOp

namespace PairOp

def all : List PairOp :=
  [skipEq, skipNe, copy, or, and, xor, add, sub, subFrom]

def name : PairOp → String
  | skipEq => "CondVxVyEq"
  | skipNe => "CondVxVyNe"
  | copy => "Assign"
  | or => "BitOr"
  | and => "BitAnd"
  | xor => "BitXor"
  | add => "Add"
  | sub => "Sub"
  | subFrom => "SubN"

end PairOp

namespace RegisterOp

def all : List RegisterOp :=
  [shiftRight, shiftLeft, skipKeyDown, skipKeyUp, readDelay, waitKey, setDelay, setSound, addIndex,
    glyph, decimal, store, fetch]

def name : RegisterOp → String
  | shiftRight => "ShiftRight"
  | shiftLeft => "ShiftLeft"
  | skipKeyDown => "SkipKeyDown"
  | skipKeyUp => "SkipKeyUp"
  | readDelay => "DelayGet"
  | waitKey => "WaitKey"
  | setDelay => "DelaySet"
  | setSound => "SoundSet"
  | addIndex => "AddI"
  | glyph => "FontChar"
  | decimal => "Bcd"
  | store => "RegDump"
  | fetch => "RegLoad"

end RegisterOp

end Chip8
