import Chip8.Machine.Cycle

/-!
# Checked execution

The machine never fails to give a result: places are taken from types that have no others, and sums
of words wrap around.  Here steps and cycles are carried out once more with both checked.
Registers are the bytes of recorded instructions, every place is looked up by number, and a sum of
words must fit into a word.  Whatever breaks one of these rules has no result at all.
-/

namespace Chip8

/-- The sum of two words, if it is a word. -/
def Word.add? (a b : UInt16) : Option UInt16 :=
  if a.toNat + b.toNat < 0x10000 then some (a + b) else none

/-! ## Places by number -/

namespace Cells

variable {α : Type} {n : Nat}

/-- Put a value at a place, if there is such a place. -/
def put? (cells : Vector α n) (place : Nat) (value : α) : Option (Vector α n) :=
  if h : place < n then some (cells.set place value) else none

/-- Put values one after the other from `start` on, if there are places for all of them. -/
def putAll? (cells : Vector α n) (start : Nat) : List α → Option (Vector α n)
  | [] => some cells
  | value :: values => do
    let cells ← put? cells start value
    putAll? cells (start + 1) values

/-- The `length` values from `start` on, if there are so many. -/
def readAll? (cells : Vector α n) (start length : Nat) : Option (List α) :=
  (List.range length).mapM fun k => cells[start + k]?

end Cells

open Cells

namespace CallStack

/-- Put a return address on top, without asking first whether there is a place for it. -/
def pushChecked? (s : CallStack) (addr : UInt16) : Option CallStack := do
  let cells ← put? s.cells s.depth.val addr
  if h : s.depth.val + 1 < 17 then some ⟨cells, ⟨s.depth.val + 1, h⟩⟩ else none

/-- Take the return address from the top, without asking first whether there is one. -/
def popChecked? (s : CallStack) : Option (UInt16 × CallStack) := do
  if 0 < s.depth.val then
    let top := s.depth.val - 1
    let addr ← s.cells[top]?
    let cells ← put? s.cells top 0
    return (addr, ⟨cells, ⟨top, by omega⟩⟩)
  else none

end CallStack

namespace Screen

/-- Switch a pixel over and tell whether it was on. -/
def flipChecked? (s : Screen) (x y : UInt8) : Option (Bool × Screen) := do
  let place := y.toNat % height * width + x.toNat % width
  let wasOn ← s.pixels[place]?
  let pixels ← put? s.pixels place (!wasOn)
  return (wasOn, ⟨pixels, true⟩)

def flipAllChecked? : Screen → List (UInt8 × UInt8) → Option (Bool × Screen)
  | s, [] => some (false, s)
  | s, (x, y) :: rest => do
    let (wasOn, s) ← s.flipChecked? x y
    let (collision, s) ← s.flipAllChecked? rest
    return (wasOn || collision, s)

end Screen

namespace Machine

/-! ## Small steps -/

def registerChecked? (m : Machine) (x : UInt8) : Option UInt8 :=
  m.v[x.toNat]?

def setRegisterChecked? (m : Machine) (x : UInt8) (value : UInt8) : Option Machine := do
  let v ← put? m.v x.toNat value
  return { m with v := v }

def advanceChecked? (m : Machine) : Option Machine := do
  let pc ← Word.add? m.pc 2
  return { m with pc := pc }

def skipIfChecked? (m : Machine) (condition : Bool) : Option Machine := do
  let pc ← Word.add? m.pc (if condition then 4 else 2)
  return { m with pc := pc }

def setWithFlagChecked? (m : Machine) (x : UInt8) (value : UInt8) (flag : Bool) :
    Option Machine := do
  let m ← m.setRegisterChecked? x value
  let m ← m.setRegisterChecked? 15 flag.toUInt8
  m.advanceChecked?

/-! ## Instructions -/

def callChecked? (m : Machine) (addr : UInt16) : Option (Except Fault Effect) := do
  if m.stack.depth.val = 16 then
    return .error (.stackOverflow m.pc)
  let target ← Word.add? m.pc 2
  let stack ← m.stack.pushChecked? target
  return .ok (silently { m with stack := stack, pc := addr })

def retChecked? (m : Machine) : Option (Except Fault Effect) := do
  if m.stack.depth.val = 0 then
    return .error (.stackUnderflow m.pc)
  let (addr, stack) ← m.stack.popChecked?
  return .ok (silently { m with stack := stack, pc := addr })

def executeAddressChecked? (m : Machine) (op : AddressOp) (addr : UInt16) :
    Option (Except Fault Effect) := do
  match op with
  | .machineCall => return .ok ⟨← m.advanceChecked?, [.note (.machineCall addr)]⟩
  | .jump => return .ok (silently { m with pc := addr })
  | .call => m.callChecked? addr
  | .setIndex =>
    let m ← m.advanceChecked?
    return .ok (silently { m with index := addr })
  | .jumpOffset =>
    let offset ← m.registerChecked? 0
    let pc ← Word.add? addr offset.toUInt16
    return .ok (silently { m with pc := pc })

def executeByteChecked? (m : Machine) (op : ByteOp) (x : UInt8) (nn : UInt8) : Option Machine := do
  let vx ← m.registerChecked? x
  match op with
  | .skipEq => m.skipIfChecked? (vx == nn)
  | .skipNe => m.skipIfChecked? (vx != nn)
  | .load => (← m.setRegisterChecked? x nn).advanceChecked?
  | .add => (← m.setRegisterChecked? x (vx + nn)).advanceChecked?
  | .random =>
    let (byte, random) := m.random.nextByte
    let m ← (← m.setRegisterChecked? x (byte &&& nn)).advanceChecked?
    return { m with random := random }

def executePairChecked? (m : Machine) (op : PairOp) (x y : UInt8) : Option Machine := do
  let vx ← m.registerChecked? x
  let vy ← m.registerChecked? y
  match op with
  | .skipEq => m.skipIfChecked? (vx == vy)
  | .skipNe => m.skipIfChecked? (vx != vy)
  | .copy => (← m.setRegisterChecked? x vy).advanceChecked?
  | .or => (← m.setRegisterChecked? x (vx ||| vy)).advanceChecked?
  | .and => (← m.setRegisterChecked? x (vx &&& vy)).advanceChecked?
  | .xor => (← m.setRegisterChecked? x (vx ^^^ vy)).advanceChecked?
  | .add => m.setWithFlagChecked? x (vx + vy) (256 ≤ vx.toNat + vy.toNat)
  | .sub => m.setWithFlagChecked? x (vx - vy) (vy ≤ vx)
  | .subFrom => m.setWithFlagChecked? x (vy - vx) (vx ≤ vy)

/-- Carry out what follows a check of the `length` bytes from the index register on. -/
def behindRange? (m : Machine) (length : Nat) (next : Option Machine) :
    Option (Except Fault Effect) := do
  match Memory.checkRange m.index.toNat length with
  | .error fault => return .error fault
  | .ok () => return .ok (silently (← next))

def executeRegisterChecked? (m : Machine) (op : RegisterOp) (x : UInt8) :
    Option (Except Fault Effect) := do
  let vx ← m.registerChecked? x
  match op with
  | .shiftRight => return .ok (silently (← m.setWithFlagChecked? x (vx >>> 1) (vx % 2 == 1)))
  | .shiftLeft => return .ok (silently (← m.setWithFlagChecked? x (vx <<< 1) (128 ≤ vx)))
  | .skipKeyDown =>
    let isDown ← m.keypad.down[vx.toNat % 16]?
    return .ok (silently (← m.skipIfChecked? isDown))
  | .skipKeyUp =>
    let isDown ← m.keypad.down[vx.toNat % 16]?
    return .ok (silently (← m.skipIfChecked? !isDown))
  | .readDelay => return .ok (silently (← (← m.setRegisterChecked? x m.delay).advanceChecked?))
  | .waitKey =>
    let register ← Instruction.register? x
    let machine := { m with keypad := m.keypad.listen, mode := .awaitingKey register }
    return .ok ⟨machine, [.note (.waiting register)]⟩
  | .setDelay =>
    let m ← m.advanceChecked?
    return .ok (silently { m with delay := vx })
  | .setSound =>
    let set := m.setSound vx
    return .ok ⟨← set.machine.advanceChecked?, set.events⟩
  | .addIndex =>
    let m ← m.advanceChecked?
    return .ok (silently { m with index := m.index + vx.toUInt16 })
  | .glyph =>
    let addr := Memory.glyphStart + vx.toNat % 16 * Memory.glyphLength
    let m ← m.advanceChecked?
    return .ok (silently { m with index := UInt16.ofNat addr })
  | .decimal =>
    m.behindRange? 3 do
      let digits := [vx / 100, vx / 10 % 10, vx % 10]
      let memory ← putAll? m.memory m.index.toNat digits
      { m with memory := memory }.advanceChecked?
  | .store =>
    m.behindRange? (x.toNat + 1) do
      let values ← readAll? m.v 0 (x.toNat + 1)
      let memory ← putAll? m.memory m.index.toNat values
      { m with memory := memory }.advanceChecked?
  | .fetch =>
    m.behindRange? (x.toNat + 1) do
      let bytes ← readAll? m.memory m.index.toNat (x.toNat + 1)
      let v ← putAll? m.v 0 bytes
      { m with v := v }.advanceChecked?

def drawChecked? (m : Machine) (x y : UInt8) (n : UInt8) : Option (Except Fault Effect) := do
  let vx ← m.registerChecked? x
  let vy ← m.registerChecked? y
  m.behindRange? n.toNat do
    let sprite ← readAll? m.memory m.index.toNat n.toNat
    let (collision, screen) ← m.screen.flipAllChecked? (Sprite.litPixels vx vy sprite)
    let m ← { m with screen := screen.markDirty }.setRegisterChecked? 15 collision.toUInt8
    m.advanceChecked?

/-- Carry out one recorded instruction. -/
def executeChecked? (m : Machine) : Instruction UInt8 → Option (Except Fault Effect)
  | .clearScreen => do
    let m ← m.advanceChecked?
    return .ok (silently { m with screen := m.screen.clear })
  | .ret => m.retChecked?
  | .address op addr => m.executeAddressChecked? op addr
  | .byte op x nn => do return .ok (silently (← m.executeByteChecked? op x nn))
  | .pair op x y => do return .ok (silently (← m.executePairChecked? op x y))
  | .register op x => m.executeRegisterChecked? op x
  | .draw x y n => m.drawChecked? x y n

/-! ## Steps and cycles -/

def fetchChecked? (m : Machine) : Option (Except Fault UInt16) := do
  let pc := m.pc.toNat
  if pc + 1 < Memory.size then
    let high ← m.memory[pc]?
    let low ← m.memory[pc + 1]?
    return .ok (UInt16.ofNat (high.toNat * 256 + low.toNat))
  else
    return .error (.fetchOutOfBounds m.pc)

def resolveWaitChecked? (m : Machine) (x : Register) : Option Effect := do
  match m.keypad.takePress with
  | (some key, keypad) =>
    let m ← m.setRegisterChecked? (UInt8.ofNat x.val) (UInt8.ofNat key.val)
    let m ← m.advanceChecked?
    return ⟨{ m with keypad := keypad, mode := .running }, [.note (.resolved x key)]⟩
  | (none, _) => return m.silently

def stepChecked? (m : Machine) : Option (Outcome StepResult) := do
  match m.mode with
  | .awaitingKey x =>
    let effect ← m.resolveWaitChecked? x
    return ⟨.ok none, effect.machine, effect.events⟩
  | .running =>
    match ← m.fetchChecked? with
    | .error fault => return ⟨.error fault, m, []⟩
    | .ok word =>
      match Instruction.ofWord? word with
      | some i =>
        let note := Event.note (.executing m.pc word i.recorded)
        match ← m.executeChecked? i.recorded with
        | .ok effect => return ⟨.ok (some i), effect.machine, note :: effect.events⟩
        | .error fault => return ⟨.error fault, m, [note]⟩
      | none =>
        let passed ← m.advanceChecked?
        let machine := { passed with unrecognized := m.unrecognized + 1 }
        return ⟨.ok none, machine, [.note (.skipped m.pc word)]⟩

def cycleChecked? (m : Machine) : Option (Outcome StepResult) := do
  let stepped ← m.stepChecked?
  match stepped.answer with
  | .ok _ =>
    let ticked := stepped.machine.tick
    return ⟨stepped.answer, ticked.machine, stepped.events ++ ticked.events⟩
  | .error fault =>
    let halted := Event.note (.halted stepped.machine.pc fault)
    return ⟨stepped.answer, stepped.machine, stepped.events ++ [halted]⟩

end Machine

/-! ## Checks that pass -/

theorem Word.add?_eq_some
    {a b : UInt16} (h : a.toNat + b.toNat < 0x10000) :
    Word.add? a b = some (a + b) :=
  if_pos h

namespace Cells

variable {α : Type} {n : Nat}

theorem put?_eq_some
    (cells : Vector α n) {place : Nat} (value : α) (h : place < n) :
    put? cells place value = some (cells.set place value) :=
  dif_pos h

theorem mapM_getElem?_eq_some
    (cells : Vector α n) (default : α) {places : List Nat} (h : ∀ place ∈ places, place < n) :
    places.mapM (cells[·]?) = some (places.map fun place => cells[place]?.getD default) := by
  induction places with
  | nil => rfl
  | cons place places ih =>
      rw [List.forall_mem_cons] at h
      simp [ih h.2, Vector.getElem?_eq_getElem h.1]

theorem readAll?_eq_some
    (cells : Vector α n) (default : α) {start length : Nat}
    (h : length = 0 ∨ start + length ≤ n) :
    readAll? cells start length =
      some ((List.range length).map fun k => cells[start + k]?.getD default) := by
  have hplaces : ∀ place ∈ (List.range length).map (start + ·), place < n := by
    intro place hplace
    rw [List.mem_map] at hplace
    obtain ⟨k, hk, rfl⟩ := hplace
    rw [List.mem_range] at hk
    omega
  have hread := mapM_getElem?_eq_some cells default hplaces
  simp only [List.mapM_map, List.map_map] at hread
  exact hread

/-- Where the values are put they are, and every other place holds what it held. -/
theorem putAll?_eq_some
    (cells : Vector α n) {start : Nat} {values : List α}
    (h : start + values.length ≤ n) :
    ∃ after, putAll? cells start values = some after ∧
      ∀ (place : Nat) (hplace : place < n),
        after[place] =
          if start ≤ place then values[place - start]?.getD cells[place] else cells[place] := by
  induction values generalizing cells start with
  | nil => exact ⟨cells, rfl, by simp⟩
  | cons value values ih =>
      rw [List.length_cons] at h
      have hstart : start < n := by omega
      have hrest : start + 1 + values.length ≤ n := by omega
      obtain ⟨after, hafter, hplaces⟩ := ih (cells.set start value) hrest
      refine ⟨after, ?_, ?_⟩
      · simp [putAll?, put?_eq_some cells value hstart, hafter]
      · intro place hplace
        rw [hplaces place hplace, Vector.getElem_set]
        rcases Nat.lt_trichotomy place start with hlt | rfl | hgt
        · have hnot : ¬ start ≤ place := by omega
          have hnot' : ¬ start + 1 ≤ place := by omega
          have hne : start ≠ place := by omega
          rw [if_neg hnot', if_neg hne, if_neg hnot]
        · have hnot : ¬ place + 1 ≤ place := by omega
          simp [hnot]
        · have hle : start ≤ place := by omega
          have hle' : start + 1 ≤ place := hgt
          have hne : start ≠ place := by omega
          have hindex : place - start = place - (start + 1) + 1 := by omega
          rw [if_pos hle', if_neg hne, if_pos hle, hindex, List.getElem?_cons_succ]

end Cells

namespace Memory

theorem readAll?_memory
    (m : Memory) {start length : Nat} (h : length = 0 ∨ start + length ≤ size) :
    readAll? m start length = some (m.read start length) :=
  readAll?_eq_some m 0 h

theorem putAll?_memory
    (m : Memory) {start : Nat} {bytes : List UInt8} (h : start + bytes.length ≤ size) :
    putAll? m start bytes = some (m.write start bytes) := by
  induction bytes generalizing m start with
  | nil => rfl
  | cons b bytes ih =>
      rw [List.length_cons, size] at h
      have hstart : start < 4096 := by omega
      have hrest : start + 1 + bytes.length ≤ size := by
        rw [size]
        omega
      have hset : Vector.setIfInBounds m start b = m.set start b hstart := by
        ext place hplace
        rw [Vector.getElem_setIfInBounds, Vector.getElem_set]
      rw [write, hset, ← ih _ hrest, putAll?, put?_eq_some m b hstart]
      rfl

end Memory

namespace CallStack

theorem pushChecked?_eq_push?
    {s : CallStack} (addr : UInt16) (h : s.depth.val ≠ 16) :
    s.pushChecked? addr = s.push? addr := by
  have hlt : s.depth.val < 16 := by omega
  have hlt' : s.depth.val + 1 < 17 := by omega
  simp [pushChecked?, push?, put?_eq_some, hlt, hlt']

theorem popChecked?_eq_pop?
    (s : CallStack) :
    s.popChecked? = s.pop? := by
  obtain ⟨cells, ⟨depth, hdepth⟩⟩ := s
  cases depth with
  | zero => rfl
  | succ top =>
      have htop : top < 16 := by omega
      simp [popChecked?, pop?, put?_eq_some, htop]

end CallStack

namespace Screen

theorem flipChecked?_eq_some
    (s : Screen) (x y : UInt8) :
    s.flipChecked? x y = some (s.pixel x y, s.flip x y) := by
  have hplace : y.toNat % height * width + x.toNat % width = (index x y).val := rfl
  simp [flipChecked?, hplace, put?_eq_some, pixel, flip]

theorem flipAllChecked?_eq_some
    (s : Screen) (places : List (UInt8 × UInt8)) :
    s.flipAllChecked? places = some (s.flipAll places) := by
  induction places generalizing s with
  | nil => rfl
  | cons place places ih => simp [flipAllChecked?, flipAll, flipChecked?_eq_some, ih]

end Screen

namespace Instruction

theorem ofArithmetic?_ne_address
    (x y : Register) (n : Nat) (op : AddressOp) (addr : UInt16) :
    ofArithmetic? x y n ≠ some (address op addr) := by
  unfold ofArithmetic?
  split <;> simp

theorem ofKeySkip?_ne_address
    (x : Register) (nn : Nat) (op : AddressOp) (addr : UInt16) :
    ofKeySkip? x nn ≠ some (address op addr) := by
  unfold ofKeySkip?
  split <;> simp

theorem ofTransfer?_ne_address
    (x : Register) (nn : Nat) (op : AddressOp) (addr : UInt16) :
    ofTransfer? x nn ≠ some (address op addr) := by
  unfold ofTransfer?
  split <;> simp

/-- The address of an instruction that is read from a word is the word's last three digits. -/
theorem eq_address_of_ofWord?
    {word : UInt16} {op : AddressOp} {addr : UInt16} (h : ofWord? word = some (address op addr)) :
    addr = Word.address word := by
  dsimp only [ofWord?] at h
  split at h
  case h_1 =>
      split at h
      · cases h
      · split at h
        · cases h
        · cases h
          rfl
  case h_6 | h_10 => split at h <;> cases h
  case h_9 => exact absurd h (ofArithmetic?_ne_address _ _ _ _ _)
  case h_15 => exact absurd h (ofKeySkip?_ne_address _ _ _ _)
  case h_16 => exact absurd h (ofTransfer?_ne_address _ _ _ _)
  -- What is left are the families of a single instruction.
  all_goals first | (cases h; rfl) | cases h

theorem address_lt_of_ofWord?
    {word : UInt16} {op : AddressOp} {addr : UInt16} (h : ofWord? word = some (address op addr)) :
    addr.toNat < 4096 := by
  rw [eq_address_of_ofWord? h, Word.address, UInt16.toNat_ofNat']
  omega

end Instruction

namespace Machine

theorem toNat_ofNat_register (x : Register) : (UInt8.ofNat x.val).toNat = x.val := by
  rw [UInt8.toNat_ofNat']
  omega

theorem registerChecked?_eq_some
    (m : Machine) (x : Register) :
    m.registerChecked? (UInt8.ofNat x.val) = some (m.register x) := by
  rw [registerChecked?, toNat_ofNat_register]
  exact Vector.getElem?_eq_getElem x.isLt

theorem setRegisterChecked?_eq_some
    (m : Machine) (x : Register) (value : UInt8) :
    m.setRegisterChecked? (UInt8.ofNat x.val) value = some (m.setRegister x value) := by
  rw [setRegisterChecked?, toNat_ofNat_register, put?_eq_some m.v value x.isLt]
  rfl

theorem advanceChecked?_eq_some
    {m : Machine} (h : m.pc.toNat + 2 < 0x10000) :
    m.advanceChecked? = some m.advance := by
  rw [advanceChecked?, Word.add?_eq_some h]
  rfl

theorem skipIfChecked?_eq_some
    {m : Machine} (condition : Bool) (h : m.pc.toNat + 4 < 0x10000) :
    m.skipIfChecked? condition = some (m.skipIf condition) := by
  have hadd : m.pc.toNat + (if condition then 4 else 2 : UInt16).toNat < 0x10000 := by
    cases condition
    · exact Nat.lt_of_succ_lt (Nat.lt_of_succ_lt h)
    · exact h
  rw [skipIfChecked?, Word.add?_eq_some hadd]
  rfl

/-! ## Instructions behind which there is room -/

variable {m : Machine} (hroom : m.pc.toNat + 4 < 0x10000)

include hroom

theorem advanceChecked?_of_pc_eq
    {next : Machine} (hpc : next.pc = m.pc) :
    next.advanceChecked? = some next.advance := by
  apply advanceChecked?_eq_some
  rw [hpc]
  omega

theorem advanceChecked?_setRegister
    (x : Register) (value : UInt8) :
    (m.setRegister x value).advanceChecked? = some (m.setRegister x value).advance :=
  advanceChecked?_of_pc_eq hroom rfl

theorem setWithFlagChecked?_eq_some
    (x : Register) (value : UInt8) (flag : Bool) :
    m.setWithFlagChecked? (UInt8.ofNat x.val) value flag = some (m.setWithFlag x value flag) := by
  have hflag := (m.setRegister x value).setRegisterChecked?_eq_some Register.flag flag.toUInt8
  have hadvance :
      ((m.setRegister x value).setRegister Register.flag flag.toUInt8).advanceChecked? =
        some (m.setWithFlag x value flag) :=
    advanceChecked?_of_pc_eq hroom rfl
  rw [setWithFlagChecked?, setRegisterChecked?_eq_some, Option.bind_eq_bind, Option.bind_some]
  exact Option.bind_eq_some_iff.mpr ⟨_, hflag, hadvance⟩

theorem executeByteChecked?_eq_some
    (op : ByteOp) (x : Register) (nn : UInt8) :
    m.executeByteChecked? op (UInt8.ofNat x.val) nn = some (m.executeByte op x nn) := by
  have hskip := fun condition => skipIfChecked?_eq_some condition hroom
  have hadvance := advanceChecked?_setRegister hroom x
  cases op <;>
    simp [executeByteChecked?, executeByte, registerChecked?_eq_some, setRegisterChecked?_eq_some,
      hskip, hadvance]

theorem executePairChecked?_eq_some
    (op : PairOp) (x y : Register) :
    m.executePairChecked? op (UInt8.ofNat x.val) (UInt8.ofNat y.val) =
      some (m.executePair op x y) := by
  have hskip := fun condition => skipIfChecked?_eq_some condition hroom
  have hadvance := advanceChecked?_setRegister hroom x
  have hflag := setWithFlagChecked?_eq_some hroom x
  cases op <;>
    simp [executePairChecked?, executePair, registerChecked?_eq_some, setRegisterChecked?_eq_some,
      hskip, hadvance, hflag]

omit hroom in
theorem retChecked?_eq_some (m : Machine) : m.retChecked? = some m.ret := by
  unfold retChecked?
  split
  next hempty =>
    have hdepth : m.stack.depth = 0 := Fin.ext hempty
    rw [ret, CallStack.pop?_eq_none_iff.mpr hdepth]
    rfl
  next hcalled =>
    have hdepth : m.stack.depth ≠ 0 := fun h => hcalled (congrArg Fin.val h)
    rw [ret, CallStack.popChecked?_eq_pop?]
    cases hpop : m.stack.pop? with
    | none => exact absurd (CallStack.pop?_eq_none_iff.mp hpop) hdepth
    | some top => rfl

theorem callChecked?_eq_some
    (addr : UInt16) :
    m.callChecked? addr = some (m.call addr) := by
  unfold callChecked?
  split
  next hfull =>
    have hdepth : m.stack.depth = 16 := Fin.ext hfull
    rw [call, CallStack.push?_eq_none_iff.mpr hdepth]
    rfl
  next hfree =>
    have hdepth : m.stack.depth ≠ 16 := fun h => hfree (congrArg Fin.val h)
    have hadd : m.pc.toNat + (2 : UInt16).toNat < 0x10000 := by
      change m.pc.toNat + 2 < 0x10000
      omega
    rw [call, Word.add?_eq_some hadd, Option.bind_eq_bind, Option.bind_some,
      CallStack.pushChecked?_eq_push? _ hfree]
    cases hpush : m.stack.push? (m.pc + 2) with
    | none => exact absurd (CallStack.push?_eq_none_iff.mp hpush) hdepth
    | some stack => rfl

theorem executeAddressChecked?_eq_some
    (op : AddressOp) {addr : UInt16} (haddr : addr.toNat < 4096) :
    m.executeAddressChecked? op addr = some (m.executeAddress op addr) := by
  have hadvance : m.advanceChecked? = some m.advance :=
    advanceChecked?_eq_some (by omega)
  cases op with
  | machineCall => simp [executeAddressChecked?, executeAddress, hadvance]
  | jump => rfl
  | call => exact callChecked?_eq_some hroom addr
  | setIndex => simp [executeAddressChecked?, executeAddress, hadvance]; rfl
  | jumpOffset =>
      have hregister : m.registerChecked? 0 = some (m.register Register.offset) :=
        m.registerChecked?_eq_some Register.offset
      have hadd : addr.toNat + (m.register Register.offset).toUInt16.toNat < 0x10000 := by
        have := (m.register Register.offset).toNat_lt
        rw [UInt8.toNat_toUInt16]
        omega
      have hsum := Word.add?_eq_some hadd
      simp [executeAddressChecked?, executeAddress, hregister, hsum]

omit hroom in
theorem readAll?_registers
    (v : Vector UInt8 16) {count : Nat} (h : count ≤ 16) :
    readAll? v 0 count = some (v.toList.take count) := by
  have hcount : 0 + count ≤ 16 := by omega
  rw [readAll?_eq_some v 0 (.inr hcount)]
  congr 1
  apply List.ext_getElem
  · simp [h]
  · intro k hk _
    have hlt : k < 16 := by
      rw [List.length_map, List.length_range] at hk
      omega
    simp [Vector.getElem?_eq_getElem hlt]

omit hroom in
theorem putAll?_registers
    (v : Vector UInt8 16) (memory : Memory) (start : Nat) (x : Register) :
    putAll? v 0 (memory.read start (x.val + 1)) =
      some (v.mapFinIdx fun k value _ =>
        if k ≤ x.val then memory.byte (start + k) else value) := by
  have hlength : 0 + (memory.read start (x.val + 1)).length ≤ 16 := by
    rw [Memory.length_read]
    omega
  obtain ⟨after, hafter, hplaces⟩ := putAll?_eq_some v hlength
  rw [hafter]
  congr 1
  ext place hplace
  rw [hplaces place hplace, Vector.getElem_mapFinIdx, if_pos (Nat.zero_le place), Nat.sub_zero]
  by_cases hle : place ≤ x.val
  · have hlt : place < x.val + 1 := by omega
    simp [Memory.read, hle, hlt]
  · have hnot : ¬ place < x.val + 1 := by omega
    simp [Memory.read, hle, hnot]

omit hroom in
theorem behindRange?_eq_some
    {length : Nat} {next : Option Machine} {after : Machine}
    (h : length = 0 ∨ m.index.toNat + length ≤ Memory.size → next = some after) :
    m.behindRange? length next =
      some (Memory.checkRange m.index.toNat length >>= fun _ => .ok (silently after)) := by
  unfold behindRange?
  cases hcheck : Memory.checkRange m.index.toNat length with
  | error fault => rfl
  | ok _ =>
      rw [h (Memory.checkRange_eq_ok_iff.mp hcheck)]
      rfl

omit hroom in
theorem register?_ofNat
    (x : Register) :
    Instruction.register? (UInt8.ofNat x.val) = some x := by
  have hlt : (UInt8.ofNat x.val).toNat < 16 := by
    rw [toNat_ofNat_register]
    exact x.isLt
  rw [Instruction.register?, dif_pos hlt]
  exact congrArg some (Fin.ext (toNat_ofNat_register x))

omit hroom in
theorem down_getElem?
    (p : Keypad) (index : Nat) :
    p.down[index % 16]? = some (p.isDown index) :=
  Vector.getElem?_eq_getElem (Nat.mod_lt index (by decide))

theorem executeRegisterChecked?_eq_some
    (op : RegisterOp) (x : Register) :
    m.executeRegisterChecked? op (UInt8.ofNat x.val) = some (m.executeRegister op x) := by
  have hskip := fun condition => skipIfChecked?_eq_some condition hroom
  have hflag := setWithFlagChecked?_eq_some hroom x
  have hadvance : m.advanceChecked? = some m.advance := advanceChecked?_of_pc_eq hroom rfl
  unfold executeRegisterChecked?
  rw [registerChecked?_eq_some, Option.bind_eq_bind, Option.bind_some]
  cases op with
  | shiftRight | shiftLeft => simp [executeRegister, hflag]
  | skipKeyDown | skipKeyUp => simp [executeRegister, down_getElem?, hskip]
  | readDelay =>
      simp [executeRegister, setRegisterChecked?_eq_some, advanceChecked?_setRegister hroom]
  | waitKey =>
      simp [executeRegister, register?_ofNat]
  | setDelay | addIndex | glyph =>
      simp only [hadvance, Option.bind_eq_bind, Option.bind_some]
      rfl
  | setSound =>
      have hset : (m.setSound (m.register x)).machine.advanceChecked? = _ :=
        advanceChecked?_of_pc_eq hroom rfl
      simp only [hset, Option.bind_eq_bind, Option.bind_some]
      rfl
  | decimal =>
      apply behindRange?_eq_some
      intro hrange
      have hlength :
          m.index.toNat +
              [m.register x / 100, m.register x / 10 % 10, m.register x % 10].length ≤
            Memory.size :=
        hrange.resolve_left (by decide)
      simp only [Memory.putAll?_memory m.memory hlength, Option.bind_eq_bind, Option.bind_some]
      exact advanceChecked?_of_pc_eq hroom rfl
  | store =>
      rw [toNat_ofNat_register]
      apply behindRange?_eq_some
      intro hrange
      have hlength :
          m.index.toNat + (m.v.toList.take (x.val + 1)).length ≤ Memory.size := by
        rw [List.length_take, Vector.length_toList]
        omega
      simp only [readAll?_registers m.v x.isLt, Memory.putAll?_memory m.memory hlength,
        Option.bind_eq_bind, Option.bind_some]
      exact advanceChecked?_of_pc_eq hroom rfl
  | fetch =>
      rw [toNat_ofNat_register]
      apply behindRange?_eq_some
      intro hrange
      simp only [Memory.readAll?_memory m.memory hrange, putAll?_registers,
        Option.bind_eq_bind, Option.bind_some]
      exact advanceChecked?_of_pc_eq hroom rfl

theorem drawChecked?_eq_some
    (x y : Register) (n : UInt8) :
    m.drawChecked? (UInt8.ofNat x.val) (UInt8.ofNat y.val) n = some (m.draw x y n) := by
  unfold drawChecked?
  simp only [registerChecked?_eq_some, Option.bind_eq_bind, Option.bind_some]
  apply behindRange?_eq_some
  intro hrange
  have hflag : (15 : UInt8) = UInt8.ofNat Register.flag.val := rfl
  simp only [Memory.readAll?_memory m.memory hrange, Screen.flipAllChecked?_eq_some, hflag,
    setRegisterChecked?_eq_some, Option.bind_some]
  exact advanceChecked?_of_pc_eq hroom rfl

/-- No check fails in an instruction whose address, if it has one, has three digits, if there is
room behind the program counter. -/
theorem executeChecked?_eq_some
    {i : Instruction Register} (haddr : ∀ op addr, i = .address op addr → addr.toNat < 4096) :
    m.executeChecked? i.recorded = some (m.execute i) := by
  cases i with
  | clearScreen =>
      have hadvance : m.advanceChecked? = some m.advance := advanceChecked?_of_pc_eq hroom rfl
      simp only [Instruction.recorded, Instruction.map, executeChecked?, hadvance]
      rfl
  | ret => exact m.retChecked?_eq_some
  | address op addr => exact executeAddressChecked?_eq_some hroom op (haddr op addr rfl)
  | byte op x nn =>
      have hbyte := executeByteChecked?_eq_some hroom op x nn
      simp only [Instruction.recorded, Instruction.map, executeChecked?, hbyte]
      rfl
  | pair op x y =>
      have hpair := executePairChecked?_eq_some hroom op x y
      simp only [Instruction.recorded, Instruction.map, executeChecked?, hpair]
      rfl
  | register op x => exact executeRegisterChecked?_eq_some hroom op x
  | draw x y n => exact drawChecked?_eq_some hroom x y n

omit hroom in
theorem fetchChecked?_eq_some (m : Machine) : m.fetchChecked? = some m.fetch := by
  unfold fetchChecked? fetch
  by_cases h : m.pc.toNat + 1 < Memory.size
  · have hlow : m.pc.toNat + 1 < 4096 := h
    have hhigh : m.pc.toNat < 4096 := by omega
    simp [h, hhigh, hlow, Memory.byte]
  · simp [h]

theorem resolveWaitChecked?_eq_some
    (x : Register) :
    m.resolveWaitChecked? x = some (m.resolveWait x) := by
  unfold resolveWaitChecked? resolveWait
  cases m.keypad.takePress with
  | mk press keypad =>
    cases press with
    | none => rfl
    | some key => simp [setRegisterChecked?_eq_some, advanceChecked?_setRegister hroom]

/-- No check fails in a step if there is room behind the program counter. -/
theorem stepChecked?_eq_some : m.stepChecked? = some m.step := by
  cases hmode : m.mode with
  | awaitingKey x =>
      have hresolve := resolveWaitChecked?_eq_some hroom x
      simp [stepChecked?, step, hmode, hresolve]
  | running =>
      have hadvance : m.advanceChecked? = some m.advance := advanceChecked?_of_pc_eq hroom rfl
      have hfetched := m.fetchChecked?_eq_some
      cases hfetch : m.fetch with
      | error fault => simp [stepChecked?, step, hmode, hfetched, hfetch]
      | ok word =>
          cases hword : Instruction.ofWord? word with
          | none => simp [stepChecked?, step, hmode, hfetched, hfetch, hword, hadvance, skipWord]
          | some i =>
              have haddr : ∀ op addr, i = .address op addr → addr.toNat < 4096 := by
                rintro op addr rfl
                exact Instruction.address_lt_of_ofWord? hword
              have hexecuted := executeChecked?_eq_some hroom haddr
              cases hexecute : m.execute i <;>
                simp [stepChecked?, step, executeWord, hmode, hfetched, hfetch, hword, hexecuted,
                  hexecute]

theorem cycleChecked?_eq_some : m.cycleChecked? = some m.cycle := by
  have hstep := stepChecked?_eq_some hroom
  cases hanswer : m.step.answer <;> simp [cycleChecked?, cycle, hstep, hanswer]

end Machine

end Chip8
