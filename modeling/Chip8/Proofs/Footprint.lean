import Chip8.Proofs.CallStack
import Chip8.Proofs.Fault

/-!
# The footprint of an instruction

The frame of an instruction says which parts of the machine it leaves alone altogether.  Its
footprint says more about the parts that are left: of the registers only the targets are written,
of memory only the bytes from the index register on that the instruction spans, of the keypad only
the latch, and the program counter goes to one of few places.
-/

namespace Chip8

namespace Instruction

/-- The instructions that may pass over the next one. -/
def skips {R : Type} : Instruction R → Bool
  | byte .skipEq .. => true
  | byte .skipNe .. => true
  | pair .skipEq .. => true
  | pair .skipNe .. => true
  | register .skipKeyDown _ => true
  | register .skipKeyUp _ => true
  | _ => false

/-- The registers that an instruction may write. -/
def targets : Instruction Register → List Register
  | byte .load x _ => [x]
  | byte .add x _ => [x]
  | byte .random x _ => [x]
  | pair .copy x _ => [x]
  | pair .or x _ => [x]
  | pair .and x _ => [x]
  | pair .xor x _ => [x]
  | pair .add x _ => [x, Register.flag]
  | pair .sub x _ => [x, Register.flag]
  | pair .subFrom x _ => [x, Register.flag]
  | register .shiftRight x => [x, Register.flag]
  | register .shiftLeft x => [x, Register.flag]
  | register .readDelay x => [x]
  | register .fetch x => (List.finRange 16).filter (· ≤ x)
  | draw .. => [Register.flag]
  | _ => []

end Instruction

namespace Action

/-- The requests that only ask for something. -/
def asks : Action → Bool
  | keypad (.read _) => true
  | screen (.pixel ..) => true
  | screen (.index ..) => true
  | screen (.at _) => true
  | screen .size => true
  | _ => false

end Action

namespace Memory

theorem byte_write_of_outside
    (m : Memory) {start addr : Nat} {bytes : List UInt8}
    (h : start ≤ addr → start + bytes.length ≤ addr) :
    (m.write start bytes).byte addr = m.byte addr := by
  rw [byte_write]
  split
  next hin =>
    have hpast : bytes.length ≤ addr - start := by
      have := h hin.1
      omega
    rw [List.getElem?_eq_none hpast]
    rfl
  next => rfl

end Memory

namespace Machine

/-- Whether `pc` is where an instruction may leave the program counter.  The address that a jump
adds to V0 must not lie so high that the sum is no word. -/
def GoesTo (m : Machine) (pc : UInt16) : Instruction Register → Prop
  | .ret => m.stack.calls.getLast? = some pc
  | .address .jump addr => pc = addr
  | .address .call addr => pc = addr
  | .address .jumpOffset addr =>
    addr.toNat + (m.register Register.offset).toNat < 0x10000 →
      pc.toNat = addr.toNat + (m.register Register.offset).toNat
  | .register .waitKey _ => pc = m.pc
  | i => pc = m.pc + 2 ∨ (i.skips = true ∧ pc = m.pc + 4)

/-- What carrying out `i` on `m`, with the effect `e`, may change at most. -/
structure Footprint (m : Machine) (i : Instruction Register) (e : Effect) : Prop
    extends m.Frame i e where
  registers : ∀ z, z ∉ i.targets → e.machine.register z = m.register z
  bytes : ∀ addr, e.machine.memory.byte addr ≠ m.memory.byte addr →
    m.index.toNat ≤ addr ∧ addr < m.index.toNat + i.span
  keys : e.machine.keypad.down = m.keypad.down
  next : m.GoesTo e.machine.pc i

variable {m : Machine} {i : Instruction Register} {e : Effect}

/-! ## Subroutines -/

theorem ret_eq_ok
    (h : m.ret = .ok e) :
    ∃ addr stack, m.stack.pop? = some (addr, stack) ∧
      e = silently { m with stack := stack, pc := addr } := by
  unfold ret at h
  split at h
  next addr stack hpop => exact ⟨addr, stack, hpop, (Except.ok.inj h).symm⟩
  next => cases h

theorem call_eq_ok
    {addr : UInt16} (h : m.call addr = .ok e) :
    ∃ stack, m.stack.push? (m.pc + 2) = some stack ∧
      e = silently { m with stack := stack, pc := addr } := by
  unfold call at h
  split at h
  next stack hpush => exact ⟨stack, hpush, (Except.ok.inj h).symm⟩
  next => cases h

/-! ## Registers -/

/-- The flag is put into VF last, so VF holds it even if it was to hold the result. -/
theorem register_setWithFlag
    (m : Machine) (x z : Register) (value : UInt8) (flag : Bool) :
    (m.setWithFlag x value flag).register z =
      if Register.flag = z then flag.toUInt8 else if x = z then value else m.register z := by
  rw [setWithFlag, register_advance, register_setRegister, register_setRegister]

theorem register_setRegister_of_not_mem
    {x z : Register} (hz : z ∉ [x]) (value : UInt8) :
    (m.setRegister x value).register z = m.register z := by
  rw [register_setRegister, if_neg (List.ne_of_not_mem_cons hz).symm]

theorem register_setWithFlag_of_not_mem
    {x z : Register} (hz : z ∉ [x, Register.flag]) (value : UInt8) (flag : Bool) :
    (m.setWithFlag x value flag).register z = m.register z := by
  have hflag : z ≠ Register.flag := by
    rintro rfl
    simp at hz
  rw [register_setWithFlag, if_neg hflag.symm, if_neg (List.ne_of_not_mem_cons hz).symm]

theorem register_executeByte
    {op : ByteOp} {x z : Register} {nn : UInt8} (hz : z ∉ (Instruction.byte op x nn).targets) :
    (m.executeByte op x nn).register z = m.register z := by
  cases op with
  | skipEq | skipNe => rfl
  | load | add | random => exact register_setRegister_of_not_mem hz _

theorem register_executePair
    {op : PairOp} {x y z : Register} (hz : z ∉ (Instruction.pair op x y).targets) :
    (m.executePair op x y).register z = m.register z := by
  cases op with
  | skipEq | skipNe => rfl
  | copy | or | and | xor => exact register_setRegister_of_not_mem hz _
  | add | sub | subFrom => exact register_setWithFlag_of_not_mem hz _ _

/-- Of the registers only those up to Vx are copied from memory. -/
theorem register_fetchRegisters
    {x z : Register} (h : m.fetchRegisters x = .ok e) :
    e.machine.register z =
      if z ≤ x then m.memory.byte (m.index.toNat + z.val) else m.register z := by
  cases Memory.eq_ok_of_checkRange_bind h
  exact Vector.getElem_mapFinIdx ..

theorem register_executeRegister
    {op : RegisterOp} {x z : Register} (hz : z ∉ (Instruction.register op x).targets)
    (h : m.executeRegister op x = .ok e) :
    e.machine.register z = m.register z := by
  cases op with
  | shiftRight | shiftLeft =>
      cases h
      exact register_setWithFlag_of_not_mem hz _ _
  | readDelay =>
      cases h
      exact register_setRegister_of_not_mem hz _
  | decimal | store =>
      cases Memory.eq_ok_of_checkRange_bind h
      rfl
  | fetch =>
      have hbehind : ¬ z ≤ x := by
        simpa [Instruction.targets] using hz
      rw [register_fetchRegisters h, if_neg hbehind]
  | _ =>
      cases h
      rfl

theorem register_of_execute
    {z : Register} (hz : z ∉ i.targets) (h : m.execute i = .ok e) :
    e.machine.register z = m.register z := by
  cases i with
  | clearScreen =>
      cases h
      rfl
  | ret =>
      obtain ⟨addr, stack, -, rfl⟩ := ret_eq_ok h
      rfl
  | address op addr =>
      cases op with
      | call =>
          obtain ⟨stack, -, rfl⟩ := call_eq_ok h
          rfl
      | _ =>
          cases h
          rfl
  | byte op x nn =>
      cases h
      exact register_executeByte hz
  | pair op x y =>
      cases h
      exact register_executePair hz
  | register op x => exact register_executeRegister hz h
  | draw x y n =>
      cases Memory.eq_ok_of_checkRange_bind h
      exact register_setRegister_of_not_mem hz _

/-! ## Memory and keys -/

/-- What is written to memory lies in one piece, as long as the instruction's span, from the index
register on. -/
theorem memory_of_writesMemory
    (hwrites : i.writesMemory = true) (h : m.execute i = .ok e) :
    ∃ bytes, bytes.length = i.span ∧ e.machine.memory = m.memory.write m.index.toNat bytes := by
  cases i with
  | register op x =>
      cases op with
      | decimal =>
          cases Memory.eq_ok_of_checkRange_bind h
          exact ⟨_, rfl, rfl⟩
      | store =>
          cases Memory.eq_ok_of_checkRange_bind h
          refine ⟨_, ?_, rfl⟩
          rw [List.length_take, Vector.length_toList]
          exact Nat.min_eq_left x.isLt
      | _ => cases hwrites
  | _ => cases hwrites

theorem bytes_of_execute
    (h : m.execute i = .ok e) {addr : Nat}
    (hne : e.machine.memory.byte addr ≠ m.memory.byte addr) :
    m.index.toNat ≤ addr ∧ addr < m.index.toNat + i.span := by
  by_cases hwrites : i.writesMemory = true
  · obtain ⟨bytes, hlength, hmemory⟩ := memory_of_writesMemory hwrites h
    rw [← hlength]
    by_contra houtside
    apply hne
    rw [hmemory, Memory.byte_write_of_outside]
    omega
  · rw [(execute_frame h).memory (Bool.eq_false_of_not_eq_true hwrites)] at hne
    exact absurd rfl hne

/-- A wait touches the latch of the keypad, and nothing else does. -/
theorem keys_of_execute
    (h : m.execute i = .ok e) :
    e.machine.keypad.down = m.keypad.down := by
  by_cases hwait : ∃ x, i = .register .waitKey x
  · obtain ⟨x, rfl⟩ := hwait
    cases h
    rfl
  · rw [(execute_frame h).keypad fun x heq => hwait ⟨x, heq⟩]

/-! ## The program counter -/

theorem goesTo_executeAddress
    {op : AddressOp} {addr : UInt16} (h : m.executeAddress op addr = .ok e) :
    m.GoesTo e.machine.pc (.address op addr) := by
  cases op with
  | machineCall | setIndex =>
      cases h
      exact .inl rfl
  | jump =>
      cases h
      rfl
  | call =>
      obtain ⟨stack, -, rfl⟩ := call_eq_ok h
      rfl
  | jumpOffset =>
      cases h
      intro hfits
      have hsum : (addr + (m.register Register.offset).toUInt16).toNat =
          (addr.toNat + (m.register Register.offset).toNat) % 0x10000 := by
        rw [UInt16.toNat_add, UInt8.toNat_toUInt16]
      exact hsum.trans (Nat.mod_eq_of_lt hfits)

theorem goesTo_executeRegister
    {op : RegisterOp} {x : Register} (h : m.executeRegister op x = .ok e) :
    m.GoesTo e.machine.pc (.register op x) := by
  cases op with
  | skipKeyDown | skipKeyUp =>
      cases h
      exact (m.pc_skipIf _).imp_right fun hpc => ⟨rfl, hpc⟩
  | waitKey =>
      cases h
      rfl
  | decimal | store | fetch =>
      cases Memory.eq_ok_of_checkRange_bind h
      exact .inl rfl
  | _ =>
      cases h
      exact .inl rfl

theorem goesTo_of_execute
    (h : m.execute i = .ok e) :
    m.GoesTo e.machine.pc i := by
  cases i with
  | clearScreen =>
      cases h
      exact .inl rfl
  | ret =>
      obtain ⟨addr, stack, hpop, rfl⟩ := ret_eq_ok h
      change m.stack.calls.getLast? = some addr
      rw [CallStack.calls_of_pop? hpop, List.getLast?_concat]
  | address op addr => exact goesTo_executeAddress h
  | byte op x nn =>
      cases h
      cases op with
      | skipEq | skipNe => exact (m.pc_skipIf _).imp_right fun hpc => ⟨rfl, hpc⟩
      | _ => exact .inl rfl
  | pair op x y =>
      cases h
      cases op with
      | skipEq | skipNe => exact (m.pc_skipIf _).imp_right fun hpc => ⟨rfl, hpc⟩
      | _ => exact .inl rfl
  | register op x => exact goesTo_executeRegister h
  | draw x y n =>
      cases Memory.eq_ok_of_checkRange_bind h
      exact .inl rfl

theorem footprint_of_execute
    (h : m.execute i = .ok e) :
    m.Footprint i e where
  toFrame := execute_frame h
  registers := fun _ hz => register_of_execute hz h
  bytes := fun _ hne => bytes_of_execute h hne
  keys := keys_of_execute h
  next := goesTo_of_execute h

theorem perform_of_asks
    (m : Machine) {action : Action} (hasks : action.asks = true) :
    (m.perform action).machine = m ∧ (m.perform action).events = [] := by
  cases action with
  | keypad action =>
      cases action with
      | read => exact ⟨rfl, rfl⟩
      | _ => cases hasks
  | screen action =>
      cases action with
      | xor | clear | markDirty | clearDirty => cases hasks
      | _ => exact ⟨rfl, rfl⟩
  | _ => cases hasks

/-- The footprint of every instruction.  One that succeeds writes to no register but its targets, to
no byte of memory but those of its span from the index register on, and to no other part of the
machine than those that the frame leaves to it; it never moves a key, nor counts a word as passed
over; and it goes on behind itself, unless it is one of those that name the next address, wait, or
may pass over the next instruction.  A request that only asks for something changes nothing. -/
theorem instruction_keeps_to_its_footprint
    (m : Machine) :
    (∀ (i : Instruction Register) (e : Effect), m.execute i = .ok e → m.Footprint i e) ∧
      ∀ action : Action, action.asks = true →
        (m.perform action).machine = m ∧ (m.perform action).events = [] := by
  constructor
  · intro i e h
    exact footprint_of_execute h
  · intro action hasks
    exact m.perform_of_asks hasks

/-- Three registers are copied to the last three bytes of memory. -/
theorem footprint_of_store_at_end_of_memory :
    let m := ((powerOn (Random.Stream.ofSeed 0)).performAll
      [.execute (.address .setIndex 0xFFD), .execute (.byte .load 2 7)]).machine
    (∃ e, m.execute (.register .store 2) = .ok e ∧
      e.machine.memory.byte 0xFFF = 7 ∧
      e.machine.memory.byte 0xFFC = m.memory.byte 0xFFC ∧
      e.machine.register 2 = m.register 2 ∧
      e.machine.index = 0xFFD ∧
      e.machine.pc = 0x206) ∧
      (m.perform (.keypad (.read 7))).machine = m := by
  intro m
  obtain ⟨hfootprint, hasks⟩ := m.instruction_keeps_to_its_footprint
  obtain ⟨e, hexecute, hbyte⟩ : ∃ e, m.execute (.register .store 2) = .ok e ∧
      e.machine.memory.byte 0xFFF = 7 :=
    ⟨_, rfl, by decide +kernel⟩
  have h := hfootprint _ e hexecute
  refine ⟨⟨e, hexecute, hbyte, ?_, h.registers 2 (by decide), ?_, ?_⟩, (hasks _ rfl).1⟩
  · by_contra hne
    have hindex := (h.bytes 0xFFC hne).1
    revert hindex
    decide +kernel
  · rw [h.index rfl]
    decide +kernel
  · obtain hpc | ⟨hskips, -⟩ := h.next
    · rw [hpc]
      decide +kernel
    · cases hskips

end Machine

end Chip8
