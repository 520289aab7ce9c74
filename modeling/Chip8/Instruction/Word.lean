import Chip8.Instruction
import Chip8.Fault

/-!
# Instruction words

Two bytes of memory hold one instruction.  The first hexadecimal digit of the word selects a
family; the register operands are the second and the third digit, and the others are the last one,
two or three digits.  `Instruction.ofWord?` reads a word and `Instruction.toWord` writes one.
-/

namespace Chip8

namespace Word

/-- The hexadecimal digit of a word at position `k`, counted from the least significant. -/
def digit (word : UInt16) (k : Nat) : Register :=
  ⟨word.toNat >>> (4 * k) % 16, Nat.mod_lt _ (by decide)⟩

def lowByte (word : UInt16) : UInt8 :=
  UInt8.ofNat (word.toNat % 256)

def address (word : UInt16) : UInt16 :=
  UInt16.ofNat (word.toNat % 4096)

/-- The word with the given digits, of which the last two are a byte. -/
def ofDigits (family x : Nat) (low : Nat) : UInt16 :=
  UInt16.ofNat (family * 4096 + x * 256 + low)

end Word

namespace AddressOp

def family : AddressOp → Nat
  | machineCall => 0x0
  | jump => 0x1
  | call => 0x2
  | setIndex => 0xA
  | jumpOffset => 0xB

end AddressOp

namespace ByteOp

def family : ByteOp → Nat
  | skipEq => 0x3
  | skipNe => 0x4
  | load => 0x6
  | add => 0x7
  | random => 0xC

end ByteOp

namespace PairOp

def family : PairOp → Nat
  | skipEq => 0x5
  | skipNe => 0x9
  | _ => 0x8

def tail : PairOp → Nat
  | skipEq => 0x0
  | skipNe => 0x0
  | copy => 0x0
  | or => 0x1
  | and => 0x2
  | xor => 0x3
  | add => 0x4
  | sub => 0x5
  | subFrom => 0x7

end PairOp

namespace RegisterOp

def family : RegisterOp → Nat
  | shiftRight => 0x8
  | shiftLeft => 0x8
  | skipKeyDown => 0xE
  | skipKeyUp => 0xE
  | _ => 0xF

/-- The last two digits of the operation's words.  A shift is known by the last digit alone; the one
before it is ignored, and written as zero. -/
def tail : RegisterOp → Nat
  | shiftRight => 0x06
  | shiftLeft => 0x0E
  | skipKeyDown => 0x9E
  | skipKeyUp => 0xA1
  | readDelay => 0x07
  | waitKey => 0x0A
  | setDelay => 0x15
  | setSound => 0x18
  | addIndex => 0x1E
  | glyph => 0x29
  | decimal => 0x33
  | store => 0x55
  | fetch => 0x65

end RegisterOp

namespace Instruction

/-- The words of family 8, told apart by their last digit. -/
def ofArithmetic? (x y : Register) : Nat → Option (Instruction Register)
  | 0x0 => some (pair .copy x y)
  | 0x1 => some (pair .or x y)
  | 0x2 => some (pair .and x y)
  | 0x3 => some (pair .xor x y)
  | 0x4 => some (pair .add x y)
  | 0x5 => some (pair .sub x y)
  | 0x6 => some (register .shiftRight x)
  | 0x7 => some (pair .subFrom x y)
  | 0xE => some (register .shiftLeft x)
  | _ => none

/-- The words of family E, told apart by their last two digits. -/
def ofKeySkip? (x : Register) : Nat → Option (Instruction Register)
  | 0x9E => some (register .skipKeyDown x)
  | 0xA1 => some (register .skipKeyUp x)
  | _ => none

/-- The words of family F, told apart by their last two digits. -/
def ofTransfer? (x : Register) : Nat → Option (Instruction Register)
  | 0x07 => some (register .readDelay x)
  | 0x0A => some (register .waitKey x)
  | 0x15 => some (register .setDelay x)
  | 0x18 => some (register .setSound x)
  | 0x1E => some (register .addIndex x)
  | 0x29 => some (register .glyph x)
  | 0x33 => some (register .decimal x)
  | 0x55 => some (register .store x)
  | 0x65 => some (register .fetch x)
  | _ => none

/-- The instruction that a word stands for, if there is one. -/
def ofWord? (word : UInt16) : Option (Instruction Register) :=
  let x := Word.digit word 2
  let y := Word.digit word 1
  let n := Word.digit word 0
  let nn := Word.lowByte word
  let addr := Word.address word
  match (Word.digit word 3).val with
  | 0x0 =>
    if word = 0x00E0 then some clearScreen
    else if word = 0x00EE then some ret
    else some (address .machineCall addr)
  | 0x1 => some (address .jump addr)
  | 0x2 => some (address .call addr)
  | 0x3 => some (byte .skipEq x nn)
  | 0x4 => some (byte .skipNe x nn)
  | 0x5 => if n.val = 0 then some (pair .skipEq x y) else none
  | 0x6 => some (byte .load x nn)
  | 0x7 => some (byte .add x nn)
  | 0x8 => ofArithmetic? x y n.val
  | 0x9 => if n.val = 0 then some (pair .skipNe x y) else none
  | 0xA => some (address .setIndex addr)
  | 0xB => some (address .jumpOffset addr)
  | 0xC => some (byte .random x nn)
  | 0xD => some (draw x y (UInt8.ofNat n.val))
  | 0xE => ofKeySkip? x nn.toNat
  | _ => ofTransfer? x nn.toNat

def toWord : Instruction Register → UInt16
  | clearScreen => 0x00E0
  | ret => 0x00EE
  | address op addr => UInt16.ofNat (op.family * 4096 + addr.toNat)
  | byte op x nn => Word.ofDigits op.family x.val nn.toNat
  | pair op x y => Word.ofDigits op.family x.val (y.val * 16 + op.tail)
  | register op x => Word.ofDigits op.family x.val op.tail
  | draw x y n => Word.ofDigits 0xD x.val (y.val * 16 + n.toNat)

/-- Read a word, with a fault if it stands for no instruction. -/
def decode (word : UInt16) : Except Fault (Instruction Register) :=
  match ofWord? word with
  | some i => .ok i
  | none => .error (.unrecognizedOpcode word)

end Instruction

end Chip8
