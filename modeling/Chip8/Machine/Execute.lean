import Chip8.Machine

/-!
# Carrying out instructions

`Machine.execute` gives what one instruction does, or the fault for which it does nothing.  Each
kind of operation has a function of its own.  An instruction leaves the program counter at the one
that runs next; a wait for a key leaves it where it is.
-/

namespace Chip8

namespace Machine

/-- Put a result into a register and then the flag into VF, which holds the flag even if it was to
hold the result. -/
def setWithFlag (m : Machine) (x : Register) (value : UInt8) (flag : Bool) : Machine :=
  ((m.setRegister x value).setRegister Register.flag flag.toUInt8).advance

/-- Call the subroutine at an address, if the stack has a place for the address to return to. -/
def call (m : Machine) (addr : UInt16) : Except Fault Effect :=
  match m.stack.push? (m.pc + 2) with
  | some stack => .ok (silently { m with stack := stack, pc := addr })
  | none => .error (.stackOverflow m.pc)

/-- Return from a subroutine, if one was called. -/
def ret (m : Machine) : Except Fault Effect :=
  match m.stack.pop? with
  | some (addr, stack) => .ok (silently { m with stack := stack, pc := addr })
  | none => .error (.stackUnderflow m.pc)

def executeAddress (m : Machine) (op : AddressOp) (addr : UInt16) : Except Fault Effect :=
  match op with
  | .machineCall => .ok ⟨m.advance, [.note (.machineCall addr)]⟩
  | .jump => .ok (silently { m with pc := addr })
  | .call => m.call addr
  | .setIndex => .ok (silently { m with index := addr }.advance)
  | .jumpOffset => .ok (silently { m with pc := addr + (m.register Register.offset).toUInt16 })

def executeByte (m : Machine) (op : ByteOp) (x : Register) (nn : UInt8) : Machine :=
  match op with
  | .skipEq => m.skipIf (m.register x == nn)
  | .skipNe => m.skipIf (m.register x != nn)
  | .load => (m.setRegister x nn).advance
  | .add => (m.setRegister x (m.register x + nn)).advance
  | .random =>
    let (byte, random) := m.random.nextByte
    { (m.setRegister x (byte &&& nn)).advance with random := random }

def executePair (m : Machine) (op : PairOp) (x y : Register) : Machine :=
  match op with
  | .skipEq => m.skipIf (m.register x == m.register y)
  | .skipNe => m.skipIf (m.register x != m.register y)
  | .copy => (m.setRegister x (m.register y)).advance
  | .or => (m.setRegister x (m.register x ||| m.register y)).advance
  | .and => (m.setRegister x (m.register x &&& m.register y)).advance
  | .xor => (m.setRegister x (m.register x ^^^ m.register y)).advance
  | .add =>
    m.setWithFlag x (m.register x + m.register y)
      (256 ≤ (m.register x).toNat + (m.register y).toNat)
  | .sub => m.setWithFlag x (m.register x - m.register y) (m.register y ≤ m.register x)
  | .subFrom => m.setWithFlag x (m.register y - m.register x) (m.register x ≤ m.register y)

/-- Write the hundreds, the tens and the ones of a register to memory. -/
def storeDecimal (m : Machine) (x : Register) : Except Fault Effect := do
  Memory.checkRange m.index.toNat 3
  let value := m.register x
  let digits := [value / 100, value / 10 % 10, value % 10]
  return silently { m with memory := m.memory.write m.index.toNat digits }.advance

/-- Copy the registers V0 to Vx to memory. -/
def storeRegisters (m : Machine) (x : Register) : Except Fault Effect := do
  Memory.checkRange m.index.toNat (x.val + 1)
  let values := m.v.toList.take (x.val + 1)
  return silently { m with memory := m.memory.write m.index.toNat values }.advance

/-- Copy memory to the registers V0 to Vx. -/
def fetchRegisters (m : Machine) (x : Register) : Except Fault Effect := do
  Memory.checkRange m.index.toNat (x.val + 1)
  let v := m.v.mapFinIdx fun k value _ =>
    if k ≤ x.val then m.memory.byte (m.index.toNat + k) else value
  return silently { m with v := v }.advance

def executeRegister (m : Machine) (op : RegisterOp) (x : Register) : Except Fault Effect :=
  match op with
  | .shiftRight => .ok (silently (m.setWithFlag x (m.register x >>> 1) (m.register x % 2 == 1)))
  | .shiftLeft => .ok (silently (m.setWithFlag x (m.register x <<< 1) (128 ≤ m.register x)))
  | .skipKeyDown => .ok (silently (m.skipIf (m.keypad.isDown (m.register x).toNat)))
  | .skipKeyUp => .ok (silently (m.skipIf !(m.keypad.isDown (m.register x).toNat)))
  | .readDelay => .ok (silently (m.setRegister x m.delay).advance)
  | .waitKey =>
    .ok ⟨{ m with keypad := m.keypad.listen, mode := .awaitingKey x }, [.note (.waiting x)]⟩
  | .setDelay => .ok (silently { m with delay := m.register x }.advance)
  | .setSound =>
    let set := m.setSound (m.register x)
    .ok ⟨set.machine.advance, set.events⟩
  | .addIndex => .ok (silently { m with index := m.index + (m.register x).toUInt16 }.advance)
  | .glyph =>
    let addr := Memory.glyphStart + (m.register x).toNat % 16 * Memory.glyphLength
    .ok (silently { m with index := UInt16.ofNat addr }.advance)
  | .decimal => m.storeDecimal x
  | .store => m.storeRegisters x
  | .fetch => m.fetchRegisters x

/-- Draw the `n` bytes from the index register on as a sprite, with its corner at the column in Vx
and the row in Vy.  The flag says whether a pixel was put out. -/
def draw (m : Machine) (x y : Register) (n : UInt8) : Except Fault Effect := do
  Memory.checkRange m.index.toNat n.toNat
  let sprite := m.memory.read m.index.toNat n.toNat
  let (collision, screen) := m.screen.draw (m.register x) (m.register y) sprite
  return silently
    ({ m with screen := screen }.setRegister Register.flag collision.toUInt8).advance

def execute (m : Machine) : Instruction Register → Except Fault Effect
  | .clearScreen => .ok (silently { m with screen := m.screen.clear }.advance)
  | .ret => m.ret
  | .address op addr => m.executeAddress op addr
  | .byte op x nn => .ok (silently (m.executeByte op x nn))
  | .pair op x y => .ok (silently (m.executePair op x y))
  | .register op x => m.executeRegister op x
  | .draw x y n => m.draw x y n

end Machine

end Chip8
