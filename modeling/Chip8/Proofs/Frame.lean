import Chip8.Machine.Execute

/-!
# What an instruction leaves alone

Most instructions touch two or three parts of the machine.  `Machine.Frame` lists, part by part,
which instructions may change it, and `execute_frame` shows that every instruction which is carried
out keeps to the list.  Invariants of the machine are read off the frame, so that only this module
looks into each kind of operation.
-/

namespace Chip8

namespace Instruction

variable {R : Type}

/-- The instructions that write to memory. -/
def writesMemory : Instruction R → Bool
  | register .decimal _ => true
  | register .store _ => true
  | _ => false

/-- The instructions that point the index register somewhere. -/
def setsIndex : Instruction R → Bool
  | address .setIndex _ => true
  | register .addIndex _ => true
  | register .glyph _ => true
  | _ => false

/-- The instructions that push or pop a return address. -/
def usesStack : Instruction R → Bool
  | ret => true
  | address .call _ => true
  | _ => false

/-- The instructions that name the next program counter themselves, or hold it for a wait. -/
def steers : Instruction R → Bool
  | ret => true
  | address .jump _ => true
  | address .call _ => true
  | address .jumpOffset _ => true
  | register .waitKey _ => true
  | _ => false

end Instruction

namespace Memory

/-- An operation behind a range check goes on exactly if the range is empty or lies in memory. -/
theorem checkRange_bind
    {α : Type} (start length : Nat) (next : Unit → Except Fault α) :
    (checkRange start length >>= next) =
      if 0 < length ∧ size < start + length
      then .error (.memoryOutOfBounds (max start size))
      else next () := by
  unfold checkRange
  split <;> rfl

/-- What follows a range check is reached only when the check passes. -/
theorem eq_ok_of_checkRange_bind
    {α : Type} {start length : Nat} {next : Unit → Except Fault α} {result : α}
    (h : (checkRange start length >>= next) = .ok result) :
    next () = .ok result := by
  rw [checkRange_bind] at h
  split at h
  · cases h
  · exact h

end Memory

namespace Machine

/-- What carrying out `i` on `m`, with the effect `e`, leaves as it was. -/
structure Frame (m : Machine) (i : Instruction Register) (e : Effect) : Prop where
  memory : i.writesMemory = false → e.machine.memory = m.memory
  stack : i.usesStack = false → e.machine.stack = m.stack
  index : i.setsIndex = false → e.machine.index = m.index
  pc : i.steers = false → e.machine.pc = m.pc + 2 ∨ e.machine.pc = m.pc + 4
  screen : i.isDisplay = false → e.machine.screen = m.screen
  delay : (∀ x, i ≠ .register .setDelay x) → e.machine.delay = m.delay
  sound : (∀ x, i ≠ .register .setSound x) → e.machine.sound = m.sound
  tones : (∀ x, i ≠ .register .setSound x) → e.events.filterMap Event.tone? = []
  keypad : (∀ x, i ≠ .register .waitKey x) → e.machine.keypad = m.keypad
  mode : (∀ x, i ≠ .register .waitKey x) → e.machine.mode = m.mode
  random : (∀ x nn, i ≠ .byte .random x nn) → e.machine.random = m.random
  unrecognized : e.machine.unrecognized = m.unrecognized

/-! ## The small steps -/

@[simp] theorem pc_advance (m : Machine) : m.advance.pc = m.pc + 2 := rfl

@[simp] theorem register_advance
    (m : Machine) (x : Register) :
    m.advance.register x = m.register x := rfl

theorem register_setRegister
    (m : Machine) (x z : Register) (value : UInt8) :
    (m.setRegister x value).register z = if x = z then value else m.register z := by
  have hset : (m.setRegister x value).register z = (m.v.set x.val value)[z.val] := rfl
  rw [hset, Vector.getElem_set]
  simp only [Fin.val_inj]
  rfl

theorem pc_skipIf
    (m : Machine) (condition : Bool) :
    (m.skipIf condition).pc = m.pc + 2 ∨ (m.skipIf condition).pc = m.pc + 4 := by
  cases condition
  · exact .inl rfl
  · exact .inr rfl

/-- Only registers and the program counter change when a result is stored and the machine moves
on. -/
theorem frame_advance
    (m : Machine) (i : Instruction Register) (v : Vector UInt8 16) :
    m.Frame i (silently { m with v := v }.advance) := by
  constructor <;> simp [silently, advance]

/-- Only the program counter changes at a skip. -/
theorem frame_skipIf
    (m : Machine) (i : Instruction Register) (condition : Bool) :
    m.Frame i (silently (m.skipIf condition)) := by
  have hpc := m.pc_skipIf condition
  constructor <;> simp_all [silently, skipIf]

/-! ## One kind of operation after the other -/

theorem frame_executeAddress
    {m : Machine} {op : AddressOp} {addr : UInt16} {e : Effect}
    (h : m.executeAddress op addr = .ok e) :
    m.Frame (.address op addr) e := by
  cases op with
  | machineCall =>
      cases h
      constructor <;> simp [advance, Event.tone?]
  | jump =>
      cases h
      constructor <;> simp [silently, Instruction.steers]
  | call =>
      simp only [executeAddress, call] at h
      split at h
      · cases h
        constructor <;> simp [silently, Instruction.usesStack, Instruction.steers]
      · cases h
  | setIndex =>
      cases h
      constructor <;> simp [silently, advance, Instruction.setsIndex]
  | jumpOffset =>
      cases h
      constructor <;> simp [silently, Instruction.steers]

theorem frame_ret
    {m : Machine} {e : Effect}
    (h : m.ret = .ok e) :
    m.Frame .ret e := by
  simp only [ret] at h
  split at h
  · cases h
    constructor <;> simp [silently, Instruction.usesStack, Instruction.steers]
  · cases h

theorem frame_executeByte
    (m : Machine) (op : ByteOp) (x : Register) (nn : UInt8) :
    m.Frame (.byte op x nn) (silently (m.executeByte op x nn)) := by
  cases op with
  | skipEq => exact m.frame_skipIf _ _
  | skipNe => exact m.frame_skipIf _ _
  | load => exact m.frame_advance _ _
  | add => exact m.frame_advance _ _
  | random =>
      constructor <;> simp [silently, executeByte, setRegister, advance]

theorem frame_executePair
    (m : Machine) (op : PairOp) (x y : Register) :
    m.Frame (.pair op x y) (silently (m.executePair op x y)) := by
  cases op with
  | skipEq => exact m.frame_skipIf _ _
  | skipNe => exact m.frame_skipIf _ _
  | _ => exact m.frame_advance _ _

theorem frame_executeRegister
    {m : Machine} {op : RegisterOp} {x : Register} {e : Effect}
    (h : m.executeRegister op x = .ok e) :
    m.Frame (.register op x) e := by
  cases op with
  | shiftRight => cases h; exact m.frame_advance _ _
  | shiftLeft => cases h; exact m.frame_advance _ _
  | skipKeyDown => cases h; exact m.frame_skipIf _ _
  | skipKeyUp => cases h; exact m.frame_skipIf _ _
  | readDelay => cases h; exact m.frame_advance _ _
  | waitKey =>
      cases h
      constructor <;> simp [Instruction.steers, Event.tone?]
  | setDelay =>
      cases h
      constructor <;> simp [silently, advance]
  | setSound =>
      cases h
      constructor <;> simp [setSound, advance]
  | addIndex =>
      cases h
      constructor <;> simp [silently, advance, Instruction.setsIndex]
  | glyph =>
      cases h
      constructor <;> simp [silently, advance, Instruction.setsIndex]
  | decimal =>
      cases Memory.eq_ok_of_checkRange_bind h
      constructor <;> simp [silently, advance, Instruction.writesMemory]
  | store =>
      cases Memory.eq_ok_of_checkRange_bind h
      constructor <;> simp [silently, advance, Instruction.writesMemory]
  | fetch =>
      cases Memory.eq_ok_of_checkRange_bind h
      exact m.frame_advance _ _

theorem frame_draw
    {m : Machine} {x y : Register} {n : UInt8} {e : Effect}
    (h : m.draw x y n = .ok e) :
    m.Frame (.draw x y n) e := by
  cases Memory.eq_ok_of_checkRange_bind h
  constructor <;> simp [silently, setRegister, advance, Instruction.isDisplay]

/-- An instruction that is carried out changes nothing outside its frame. -/
theorem execute_frame
    {m : Machine} {i : Instruction Register} {e : Effect}
    (h : m.execute i = .ok e) :
    m.Frame i e := by
  cases i with
  | clearScreen =>
      cases h
      constructor <;> simp [silently, advance, Instruction.isDisplay]
  | ret => exact frame_ret h
  | address op addr => exact frame_executeAddress h
  | byte op x nn =>
      cases h
      exact m.frame_executeByte op x nn
  | pair op x y =>
      cases h
      exact m.frame_executePair op x y
  | register op x => exact frame_executeRegister h
  | draw x y n => exact frame_draw h

end Machine

end Chip8
