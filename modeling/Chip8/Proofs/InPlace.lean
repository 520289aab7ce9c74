import Chip8.Proofs.Step

/-!
# Operations in place

An operation of the machine gives the machine after it, and one that fails gives a fault and nothing
else, so that the machine stays as it is.  Here the operations are carried out once more in place.
A procedure writes one part of the machine after the other, and when it fails, what it has written
and told by then stays.  It is all or nothing only if every check comes before the first write.

That this is so for every instruction, for loading a program, and for steps and cycles, is shown by
proving each procedure equal to its operation.
-/

namespace Chip8

/-- A computation that works on a machine in place.  It ends with the machine as it has left it,
whether it succeeds or fails. -/
def Procedure (α : Type) : Type :=
  Machine → Outcome (Except Fault α)

namespace Procedure

variable {α β : Type}

instance : Monad Procedure where
  pure a := fun m => ⟨.ok a, m, []⟩
  bind first next := fun m =>
    let begun := first m
    match begun.answer with
    | .ok a =>
      let others := next a begun.machine
      ⟨others.answer, others.machine, begun.events ++ others.events⟩
    | .error fault => ⟨.error fault, begun.machine, begun.events⟩

def read (f : Machine → α) : Procedure α :=
  fun m => ⟨.ok (f m), m, []⟩

def write (f : Machine → Machine) : Procedure Unit :=
  fun m => ⟨.ok (), f m, []⟩

def emit (events : List Event) : Procedure Unit :=
  fun m => ⟨.ok (), m, events⟩

def fail (fault : Fault) : Procedure α :=
  fun m => ⟨.error fault, m, []⟩

/-- Go on only if a check passes. -/
def check : Except Fault Unit → Procedure Unit
  | .ok () => pure ()
  | .error fault => fail fault

/-- Carry out `handler` when a procedure fails, which then fails all the same. -/
def onFailure (procedure : Procedure α) (handler : Fault → Procedure Unit) : Procedure α :=
  fun m =>
    let tried := procedure m
    match tried.answer with
    | .ok _ => tried
    | .error fault =>
      let handled := handler fault tried.machine
      ⟨.error fault, handled.machine, tried.events ++ handled.events⟩

end Procedure

namespace InPlace

open Procedure

/-! ## Small steps -/

def register (x : Register) : Procedure UInt8 :=
  read (·.register x)

def setRegister (x : Register) (value : UInt8) : Procedure Unit :=
  write (·.setRegister x value)

def setPc (addr : UInt16) : Procedure Unit :=
  write fun m => { m with pc := addr }

def setByte (addr : Nat) (value : UInt8) : Procedure Unit :=
  write fun m => { m with memory := m.memory.setIfInBounds addr value }

def advance : Procedure Unit :=
  write Machine.advance

def skipIf (condition : Bool) : Procedure Unit :=
  write (·.skipIf condition)

/-- The result goes first, so that the flag wins if the result was to go to VF. -/
def setWithFlag (x : Register) (value : UInt8) (flag : Bool) : Procedure Unit := do
  setRegister x value
  setRegister Register.flag flag.toUInt8
  advance

def randomByte : Procedure UInt8 := do
  let (byte, random) ← read (·.random.nextByte)
  write fun m => { m with random := random }
  return byte

def takePress : Procedure (Option Key) := do
  let (key, keypad) ← read (·.keypad.takePress)
  write fun m => { m with keypad := keypad }
  return key

def xorPixel (x y : UInt8) (value : Bool) : Procedure Bool := do
  let (wasOn, screen) ← read (·.screen.xorPixel x y value)
  write fun m => { m with screen := screen }
  return wasOn

def setSound (ticks : UInt8) : Procedure Unit := do
  let wasPlaying ← read (·.isTonePlaying)
  write fun m => { m with sound := ticks }
  if !wasPlaying && 0 < ticks then emit [.note (.toneStarted ticks), .tone .start]
  else if wasPlaying && ticks = 0 then emit [.note .toneCut, .tone .stop]

/-! ## Instructions -/

/-- The number of places in use, for a number that is known to be small enough. -/
def depthOf (n : Nat) : Fin 17 :=
  ⟨n % 17, Nat.mod_lt n (Nat.succ_pos 16)⟩

def call (addr : UInt16) : Procedure Unit := do
  let pc ← read (·.pc)
  let depth ← read (·.stack.depth.val)
  if depth = 16 then fail (.stackOverflow pc)
  else
    write fun m => { m with stack.cells := m.stack.cells.setIfInBounds depth (pc + 2) }
    write fun m => { m with stack.depth := depthOf (depth + 1) }
    setPc addr

def ret : Procedure Unit := do
  let pc ← read (·.pc)
  let depth ← read (·.stack.depth.val)
  if depth = 0 then fail (.stackUnderflow pc)
  else
    write fun m => { m with stack.depth := depthOf (depth - 1) }
    let addr ← read (·.stack.cells[depth - 1]?)
    setPc (addr.getD 0)
    write fun m => { m with stack.cells := m.stack.cells.setIfInBounds (depth - 1) 0 }

def executeAddress (op : AddressOp) (addr : UInt16) : Procedure Unit := do
  match op with
  | .machineCall =>
    emit [.note (.machineCall addr)]
    advance
  | .jump => setPc addr
  | .call => call addr
  | .setIndex =>
    write fun m => { m with index := addr }
    advance
  | .jumpOffset =>
    let offset ← register Register.offset
    setPc (addr + offset.toUInt16)

def executeByte (op : ByteOp) (x : Register) (nn : UInt8) : Procedure Unit := do
  match op with
  | .skipEq => skipIf ((← register x) == nn)
  | .skipNe => skipIf ((← register x) != nn)
  | .load =>
    setRegister x nn
    advance
  | .add =>
    setRegister x ((← register x) + nn)
    advance
  | .random =>
    setRegister x ((← randomByte) &&& nn)
    advance

def executePair (op : PairOp) (x y : Register) : Procedure Unit := do
  let vx ← register x
  let vy ← register y
  match op with
  | .skipEq => skipIf (vx == vy)
  | .skipNe => skipIf (vx != vy)
  | .copy =>
    setRegister x vy
    advance
  | .or =>
    setRegister x (vx ||| vy)
    advance
  | .and =>
    setRegister x (vx &&& vy)
    advance
  | .xor =>
    setRegister x (vx ^^^ vy)
    advance
  | .add => setWithFlag x (vx + vy) (256 ≤ vx.toNat + vy.toNat)
  | .sub => setWithFlag x (vx - vy) (vy ≤ vx)
  | .subFrom => setWithFlag x (vy - vx) (vx ≤ vy)

def storeDecimal (x : Register) : Procedure Unit := do
  let start ← read (·.index.toNat)
  check (Memory.checkRange start 3)
  let vx ← register x
  setByte start (vx / 100)
  setByte (start + 1) (vx / 10 % 10)
  setByte (start + 2) (vx % 10)
  advance

def storeRegisters (x : Register) : Procedure Unit := do
  let start ← read (·.index.toNat)
  check (Memory.checkRange start (x.val + 1))
  write fun m => { m with memory := m.memory.write start (m.v.toList.take (x.val + 1)) }
  advance

def fetchRegisters (x : Register) : Procedure Unit := do
  let start ← read (·.index.toNat)
  check (Memory.checkRange start (x.val + 1))
  write fun m =>
    { m with
      v := m.v.mapFinIdx fun k value _ =>
        if k ≤ x.val then m.memory.byte (start + k) else value }
  advance

def executeRegister (op : RegisterOp) (x : Register) : Procedure Unit := do
  match op with
  | .shiftRight =>
    let vx ← register x
    setWithFlag x (vx >>> 1) (vx % 2 == 1)
  | .shiftLeft =>
    let vx ← register x
    setWithFlag x (vx <<< 1) (128 ≤ vx)
  | .skipKeyDown =>
    let vx ← register x
    skipIf (← read (·.keypad.isDown vx.toNat))
  | .skipKeyUp =>
    let vx ← register x
    skipIf (!(← read (·.keypad.isDown vx.toNat)))
  | .readDelay =>
    setRegister x (← read (·.delay))
    advance
  | .waitKey =>
    emit [.note (.waiting x)]
    write fun m => { m with keypad := m.keypad.listen }
    write fun m => { m with mode := .awaitingKey x }
  | .setDelay =>
    let vx ← register x
    write fun m => { m with delay := vx }
    advance
  | .setSound =>
    setSound (← register x)
    advance
  | .addIndex =>
    let vx ← register x
    write fun m => { m with index := m.index + vx.toUInt16 }
    advance
  | .glyph =>
    let vx ← register x
    let addr := Memory.glyphStart + vx.toNat % 16 * Memory.glyphLength
    write fun m => { m with index := UInt16.ofNat addr }
    advance
  | .decimal => storeDecimal x
  | .store => storeRegisters x
  | .fetch => fetchRegisters x

/-- One row of a sprite, bit by bit from the left. -/
def drawRow (x y row : UInt8) (collision : Bool) : Procedure Bool :=
  (List.range 8).foldlM (fun collision column => do
    let wasOn ← xorPixel (x + UInt8.ofNat column) y (row.toNat.testBit (7 - column))
    return collision || wasOn) collision

/-- The rows of a sprite with the given numbers, each read when its turn comes. -/
def drawRows (x y : UInt8) (start : Nat) (rows : List Nat) (collision : Bool) : Procedure Bool :=
  rows.foldlM (fun collision k => do
    let row ← read (·.memory.byte (start + k))
    drawRow x (y + UInt8.ofNat k) row collision) collision

def draw (x y : Register) (n : UInt8) : Procedure Unit := do
  let vx ← register x
  let vy ← register y
  let start ← read (·.index.toNat)
  check (Memory.checkRange start n.toNat)
  let collision ← drawRows vx vy start (List.range n.toNat) false
  write fun m => { m with screen := m.screen.markDirty }
  setRegister Register.flag collision.toUInt8
  advance

def execute : Instruction Register → Procedure Unit
  | .clearScreen => do
    write fun m => { m with screen := m.screen.clear }
    advance
  | .ret => ret
  | .address op addr => executeAddress op addr
  | .byte op x nn => executeByte op x nn
  | .pair op x y => executePair op x y
  | .register op x => executeRegister op x
  | .draw x y n => draw x y n

/-! ## Programs, steps and cycles -/

def load (program : List UInt8) : Procedure Unit := do
  if Memory.programCapacity < program.length then
    fail (.loadCapacity program.length Memory.programCapacity)
  else
    write fun m => { m with memory := m.memory.write Memory.programStart program }
    emit [.note (.loaded program.length)]

def resolveWait (x : Register) : Procedure Unit := do
  if let some key ← takePress then
    emit [.note (.resolved x key)]
    setRegister x (UInt8.ofNat key.val)
    write fun m => { m with mode := .running }
    advance

def fetch : Procedure UInt16 := do
  let pc ← read (·.pc)
  if pc.toNat + 1 < Memory.size then
    let high ← read (·.memory.byte pc.toNat)
    let low ← read (·.memory.byte (pc.toNat + 1))
    return UInt16.ofNat (high.toNat * 256 + low.toNat)
  else fail (.fetchOutOfBounds pc)

def executeWord (word : UInt16) (i : Instruction Register) :
    Procedure (Option (Instruction Register)) := do
  let pc ← read (·.pc)
  emit [.note (.executing pc word i.recorded)]
  execute i
  return some i

def skipWord (word : UInt16) : Procedure (Option (Instruction Register)) := do
  let pc ← read (·.pc)
  emit [.note (.skipped pc word)]
  write fun m => { m with unrecognized := m.unrecognized + 1 }
  advance
  return none

def stepWord (word : UInt16) : Procedure (Option (Instruction Register)) :=
  match Instruction.ofWord? word with
  | some i => executeWord word i
  | none => skipWord word

def stepIn : Mode → Procedure (Option (Instruction Register))
  | .awaitingKey x => do
    resolveWait x
    return none
  | .running => do
    let word ← fetch
    stepWord word

def step : Procedure (Option (Instruction Register)) := do
  stepIn (← read (·.mode))

def tickDelay : Procedure Unit := do
  if 0 < (← read (·.delay)) then
    write fun m => { m with delay := m.delay - 1 }

def tickSound : Procedure Unit := do
  if 0 < (← read (·.sound)) then
    write fun m => { m with sound := m.sound - 1 }
    if (← read (·.sound)) = 0 then emit [.note .toneEnded, .tone .stop]

def tick : Procedure Unit := do
  tickDelay
  tickSound

/-- The note that a cycle leaves when its step fails. -/
def noteHalt (fault : Fault) : Procedure Unit := do
  emit [.note (.halted (← read (·.pc)) fault)]

def cycle : Procedure (Option (Instruction Register)) := do
  let i ← step.onFailure noteHalt
  tick
  return i

end InPlace

/-! ## Running a procedure -/

namespace Procedure

variable {α β : Type}

theorem pure_run (a : α) (m : Machine) : (pure a : Procedure α) m = ⟨.ok a, m, []⟩ := rfl

theorem bind_run
    (first : Procedure α) (next : α → Procedure β) (m : Machine) :
    (first >>= next) m =
      match (first m).answer with
      | .ok a =>
        { next a (first m).machine with
          events := (first m).events ++ (next a (first m).machine).events }
      | .error fault => ⟨.error fault, (first m).machine, (first m).events⟩ := rfl

theorem read_bind
    (f : Machine → α) (next : α → Procedure β) (m : Machine) :
    (read f >>= next) m = next (f m) m := rfl

theorem write_bind
    (f : Machine → Machine) (next : Unit → Procedure β) (m : Machine) :
    (write f >>= next) m = next () (f m) := rfl

/-- A check that does not pass leaves the machine alone. -/
theorem check_bind
    (result : Except Fault Unit) (next : Unit → Procedure β) (m : Machine) :
    (check result >>= next) m =
      match result with
      | .ok () => next () m
      | .error fault => ⟨.error fault, m, []⟩ := by
  cases result <;> rfl

theorem emit_bind
    (events : List Event) (next : Unit → Procedure β) (m : Machine) :
    (emit events >>= next) m = { next () m with events := events ++ (next () m).events } := rfl

/-- A procedure that has succeeded is followed by another. -/
theorem bind_of_ok
    {first : Procedure α} {m m' : Machine} {a : α} {events : List Event} (next : α → Procedure β)
    (h : first m = ⟨.ok a, m', events⟩) :
    (first >>= next) m = { next a m' with events := events ++ (next a m').events } := by
  rw [bind_run, h]

theorem bind_of_silent
    {first : Procedure α} {m m' : Machine} {a : α} (next : α → Procedure β)
    (h : first m = ⟨.ok a, m', []⟩) :
    (first >>= next) m = next a m' :=
  bind_of_ok next h

/-- Behind a procedure that has failed nothing happens. -/
theorem bind_of_error
    {first : Procedure α} {m m' : Machine} {fault : Fault} {events : List Event}
    (next : α → Procedure β) (h : first m = ⟨.error fault, m', events⟩) :
    (first >>= next) m = ⟨.error fault, m', events⟩ := by
  rw [bind_run, h]

theorem ite_run
    (c : Prop) [Decidable c] (first second : Procedure α) (m : Machine) :
    (if c then first else second) m = if c then first m else second m := by
  split <;> rfl

end Procedure

namespace Screen

theorem flipAll_append
    (s : Screen) (first second : List (UInt8 × UInt8)) :
    s.flipAll (first ++ second) =
      ((s.flipAll first).1 || ((s.flipAll first).2.flipAll second).1,
        ((s.flipAll first).2.flipAll second).2) := by
  induction first generalizing s with
  | nil => rfl
  | cons place first ih => simp only [List.cons_append, flipAll, ih, Bool.or_assoc]

end Screen

namespace InPlace

open Procedure

variable (m : Machine)

/-- What comes of an operation that does all of its work or nothing. -/
def settled (m : Machine) : Except Fault Effect → Outcome (Except Fault Unit)
  | .ok effect => ⟨.ok (), effect.machine, effect.events⟩
  | .error fault => ⟨.error fault, m, []⟩

/-! ## Subroutines -/

theorem setIfInBounds_eq
    {α : Type} {n k : Nat} (cells : Vector α n) (value : α) (h : k < n) :
    cells.setIfInBounds k value = cells.set k value := by
  ext i hi
  rw [Vector.getElem_setIfInBounds, Vector.getElem_set]

theorem call_eq
    (addr : UInt16) :
    call addr m = settled m (m.call addr) := by
  have hbound : m.stack.depth.val < 17 := m.stack.depth.isLt
  simp only [call, read_bind, ite_run, Machine.call, CallStack.push?]
  by_cases hfull : m.stack.depth.val = 16
  · have hnot : ¬ m.stack.depth.val < 16 := by omega
    rw [if_pos hfull, dif_neg hnot]
    rfl
  · have hlt : m.stack.depth.val < 16 := by omega
    have hdepth : depthOf (m.stack.depth.val + 1) = ⟨m.stack.depth.val + 1, by omega⟩ :=
      Fin.ext (Nat.mod_eq_of_lt (by omega))
    rw [if_neg hfull, dif_pos hlt]
    simp only [write_bind, hdepth, setIfInBounds_eq _ _ hlt]
    rfl

theorem ret_eq : ret m = settled m m.ret := by
  obtain ⟨memory, ⟨cells, depth, hdepth⟩, _⟩ := m
  cases depth with
  | zero => rfl
  | succ top =>
      have htop : top < 16 := by omega
      have hlow : depthOf top = ⟨top, by omega⟩ := Fin.ext (Nat.mod_eq_of_lt (by omega))
      simp only [ret, read_bind, ite_run, write_bind, Nat.add_sub_cancel]
      rw [if_neg (Nat.succ_ne_zero top)]
      simp only [hlow, Vector.getElem?_eq_getElem htop, Option.getD_some, setPc, write_bind,
        setIfInBounds_eq _ _ htop]
      rfl

/-! ## Sprites -/

/-- What comes of switching over some pixels one after the other. -/
def flipped (m : Machine) (places : List (UInt8 × UInt8)) (collision : Bool) :
    Outcome (Except Fault Bool) where
  answer := .ok (collision || (m.screen.flipAll places).1)
  machine := { m with screen := (m.screen.flipAll places).2 }
  events := []

theorem xorPixel_bind
    {α : Type} (x y : UInt8) (value collision : Bool) (next : Bool → Procedure α) :
    ((do
        let wasOn ← xorPixel x y value
        return collision || wasOn) >>= next) m =
      next (collision || (m.screen.xorPixel x y value).1)
        { m with screen := (m.screen.xorPixel x y value).2 } := rfl

theorem drawRow_eq
    (x y row : UInt8) (collision : Bool) :
    drawRow x y row collision m =
      flipped m ((Sprite.litColumns x row).map fun column => (column, y)) collision := by
  unfold drawRow Sprite.litColumns
  generalize List.range 8 = columns
  induction columns generalizing m collision with
  | nil => simp [flipped, Screen.flipAll, pure_run]
  | cons column columns ih =>
      rw [List.foldlM_cons, xorPixel_bind, ih]
      cases hlit : row.toNat.testBit (7 - column) with
      | false => simp [flipped, Screen.xorPixel, hlit]
      | true => simp [flipped, Screen.xorPixel, Screen.flipAll, hlit, Bool.or_assoc]

/-- The loop over the rows from `k` on reads each when its turn comes, but drawing does not write to
memory, so that all of them are as they were before the loop. -/
theorem drawRows_eq
    (x y : UInt8) (start k n : Nat) (collision : Bool) :
    drawRows x y start (List.range' k n) collision m =
      flipped m
        (Sprite.litPixels x (y + UInt8.ofNat k)
          ((List.range' k n).map fun k => m.memory.byte (start + k))) collision := by
  unfold drawRows
  induction n generalizing m k collision with
  | zero => simp [flipped, Sprite.litPixels, Screen.flipAll, pure_run]
  | succ n ih =>
      have hnext : y + UInt8.ofNat k + 1 = y + UInt8.ofNat (k + 1) := by
        rw [UInt8.ofNat_add, UInt8.add_assoc]
        rfl
      have hrow :
          (do
            let row ← read (·.memory.byte (start + k))
            drawRow x (y + UInt8.ofNat k) row collision : Procedure Bool) m =
          flipped m
            ((Sprite.litColumns x (m.memory.byte (start + k))).map fun column =>
              (column, y + UInt8.ofNat k)) collision :=
        drawRow_eq m x (y + UInt8.ofNat k) (m.memory.byte (start + k)) collision
      rw [List.range'_succ, List.foldlM_cons, List.map_cons, Sprite.litPixels, hnext,
        bind_of_silent _ hrow, ih]
      simp [flipped, Screen.flipAll_append, Bool.or_assoc]

theorem draw_eq
    (x y : Register) (n : UInt8) :
    draw x y n m = settled m (m.draw x y n) := by
  have hrows := drawRows_eq m (m.register x) (m.register y) m.index.toNat 0 n.toNat false
  have hzero : m.register y + UInt8.ofNat 0 = m.register y := UInt8.add_zero _
  rw [← List.range_eq_range', hzero] at hrows
  simp only [draw, register, read_bind, check_bind, Machine.draw]
  cases Memory.checkRange m.index.toNat n.toNat with
  | error fault => rfl
  | ok _ =>
      simp only [bind_of_silent _ hrows]
      rfl

/-! ## The other instructions -/

theorem executeAddress_eq
    (op : AddressOp) (addr : UInt16) :
    executeAddress op addr m = settled m (m.executeAddress op addr) := by
  cases op with
  | call => exact call_eq m addr
  | _ => rfl

theorem executeByte_eq
    (op : ByteOp) (x : Register) (nn : UInt8) :
    executeByte op x nn m = settled m (.ok (Machine.silently (m.executeByte op x nn))) := by
  cases op <;> rfl

theorem executePair_eq
    (op : PairOp) (x y : Register) :
    executePair op x y m = settled m (.ok (Machine.silently (m.executePair op x y))) := by
  cases op <;> rfl

theorem storeDecimal_eq
    (x : Register) :
    storeDecimal x m = settled m (m.storeDecimal x) := by
  simp only [storeDecimal, read_bind, check_bind, Machine.storeDecimal]
  cases Memory.checkRange m.index.toNat 3 <;> rfl

theorem storeRegisters_eq
    (x : Register) :
    storeRegisters x m = settled m (m.storeRegisters x) := by
  simp only [storeRegisters, read_bind, check_bind, Machine.storeRegisters]
  cases Memory.checkRange m.index.toNat (x.val + 1) <;> rfl

theorem fetchRegisters_eq
    (x : Register) :
    fetchRegisters x m = settled m (m.fetchRegisters x) := by
  simp only [fetchRegisters, read_bind, check_bind, Machine.fetchRegisters]
  cases Memory.checkRange m.index.toNat (x.val + 1) <;> rfl

theorem setSound_eq
    (ticks : UInt8) :
    setSound ticks m = settled m (.ok (m.setSound ticks)) := by
  simp only [setSound, read_bind, write_bind, ite_run, emit, pure_run, settled, Machine.setSound,
    Machine.isTonePlaying, UInt8.pos_iff_ne_zero]
  by_cases hsound : m.sound = 0 <;> by_cases hticks : ticks = 0 <;> simp [hsound, hticks]

theorem executeRegister_eq
    (op : RegisterOp) (x : Register) :
    executeRegister op x m = settled m (m.executeRegister op x) := by
  cases op with
  | setSound =>
      simp only [executeRegister, register, read_bind]
      rw [bind_run, setSound_eq]
      exact congrArg (Outcome.mk _ _) (List.append_nil _)
  | decimal => exact storeDecimal_eq m x
  | store => exact storeRegisters_eq m x
  | fetch => exact fetchRegisters_eq m x
  | _ => rfl

/-- An instruction that is carried out in place does all of its work or none of it. -/
theorem execute_eq
    (i : Instruction Register) :
    execute i m = settled m (m.execute i) := by
  cases i with
  | clearScreen => rfl
  | ret => exact ret_eq m
  | address op addr => exact executeAddress_eq m op addr
  | byte op x nn => exact executeByte_eq m op x nn
  | pair op x y => exact executePair_eq m op x y
  | register op x => exact executeRegister_eq m op x
  | draw x y n => exact draw_eq m x y n

/-! ## Programs, steps and cycles as a whole -/

theorem load_eq
    (program : List UInt8) :
    load program m = settled m (m.load program) := by
  simp only [load, ite_run, Machine.load]
  split <;> rfl

theorem takePress_eq :
    takePress m =
      ⟨.ok m.keypad.takePress.1, { m with keypad := m.keypad.takePress.2 }, []⟩ := rfl

theorem resolveWait_eq
    (x : Register) :
    resolveWait x m = settled m (.ok (m.resolveWait x)) := by
  rw [resolveWait, bind_of_silent _ (takePress_eq m), Machine.resolveWait, Keypad.takePress]
  cases m.keypad.latch <;> rfl

theorem fetch_eq : fetch m = ⟨m.fetch, m, []⟩ := by
  simp only [fetch, read_bind, ite_run, Machine.fetch]
  split <;> rfl

theorem executeWord_eq
    (word : UInt16) (i : Instruction Register) :
    executeWord word i m = m.executeWord word i := by
  have hexecute := execute_eq m i
  rw [executeWord, read_bind, emit_bind, Machine.executeWord]
  cases h : m.execute i with
  | error fault =>
      rw [h] at hexecute
      rw [bind_of_error _ hexecute]
      rfl
  | ok effect =>
      rw [h] at hexecute
      rw [bind_of_ok _ hexecute]
      simp [pure_run]

theorem skipWord_eq (word : UInt16) : skipWord word m = m.skipWord word := rfl

theorem stepWord_eq
    (word : UInt16) :
    stepWord word m =
      match Instruction.ofWord? word with
      | some i => m.executeWord word i
      | none => m.skipWord word := by
  unfold stepWord
  cases Instruction.ofWord? word with
  | none => exact skipWord_eq m word
  | some i => exact executeWord_eq m word i

/-- A step in place is a step. -/
theorem step_eq : step m = m.step := by
  rw [step, read_bind]
  cases hmode : m.mode with
  | awaitingKey x =>
      rw [stepIn, bind_of_ok _ (resolveWait_eq m x)]
      simp [Machine.step, hmode, pure_run]
  | running =>
      have hfetch := fetch_eq m
      cases hword : m.fetch with
      | error fault =>
          rw [hword] at hfetch
          rw [stepIn, bind_of_error _ hfetch]
          simp only [Machine.step, hmode, hword]
      | ok word =>
          rw [hword] at hfetch
          rw [stepIn, bind_of_silent _ hfetch, stepWord_eq]
          cases hi : Instruction.ofWord? word <;> simp only [Machine.step, hmode, hword, hi]

theorem tickDelay_eq :
    tickDelay m =
      ⟨.ok (), { m with delay := if m.delay = 0 then 0 else m.delay - 1 }, []⟩ := by
  simp only [tickDelay, read_bind, ite_run, UInt8.pos_iff_ne_zero, ne_eq, ite_not]
  split
  next hzero =>
    have hsame : m = { m with delay := 0 } :=
      congrArg (fun delay => { m with delay := delay }) hzero
    exact congrArg (pure () : Procedure Unit) hsame
  next => rfl

theorem tickSound_eq :
    tickSound m =
      { answer := .ok ()
        machine := { m with sound := if m.sound = 0 then 0 else m.sound - 1 }
        events := if m.sound = 1 then [.note .toneEnded, .tone .stop] else [] } := by
  -- the tone ends with the tick that leaves zero
  have hlast : m.sound - 1 = 0 ↔ m.sound = 1 := by
    grind
  simp only [tickSound, read_bind, write_bind, ite_run, UInt8.pos_iff_ne_zero, ne_eq, ite_not,
    hlast]
  by_cases hzero : m.sound = 0
  · have hone : m.sound ≠ 1 := by
      rw [hzero]
      decide
    rw [if_pos hzero, if_pos hzero, if_neg hone, ← hzero]
    rfl
  · rw [if_neg hzero, if_neg hzero]
    split <;> rfl

theorem tick_eq : tick m = ⟨.ok (), m.tick.machine, m.tick.events⟩ := by
  rw [tick, bind_of_silent _ (tickDelay_eq m), tickSound_eq]
  rfl

/-- A cycle in place is a cycle. -/
theorem cycle_eq : cycle m = m.cycle := by
  have hstep := step_eq m
  cases hanswer : m.step.answer with
  | error fault =>
      have hfailed : step.onFailure noteHalt m =
          ⟨.error fault, m.step.machine,
            m.step.events ++ [.note (.halted m.step.machine.pc fault)]⟩ := by
        simp only [onFailure, hstep, hanswer]
        rfl
      rw [cycle, bind_of_error _ hfailed]
      simp only [Machine.cycle, hanswer]
  | ok i =>
      have hpassed : step.onFailure noteHalt m = ⟨.ok i, m.step.machine, m.step.events⟩ := by
        simp only [onFailure, hstep, hanswer]
        rw [← hanswer]
      rw [cycle, bind_of_ok _ hpassed, bind_of_ok _ (tick_eq _)]
      simp [Machine.cycle, hanswer, pure_run]

/-! ## All or nothing -/

/-- What a host is told of a procedure. -/
def requested (o : Outcome (Except Fault Unit)) : Outcome Reply :=
  ⟨.ofExcept o.answer, o.machine, o.events⟩

theorem attempt_eq
    (result : Except Fault Effect) :
    m.attempt result = requested (settled m result) := by
  cases result <;> rfl

theorem perform_execute_eq
    (i : Instruction Register) :
    m.perform (.execute i) = requested (execute i m) := by
  rw [execute_eq]
  exact attempt_eq m (m.execute i)

theorem perform_load_eq
    (program : List UInt8) :
    m.perform (.load program) = requested (load program m) := by
  rw [load_eq]
  exact attempt_eq m (m.load program)

theorem settled_of_error
    {result : Except Fault Effect} {fault : Fault}
    (h : (settled m result).answer = .error fault) :
    (settled m result).machine = m ∧ (settled m result).events = [] := by
  cases result with
  | ok effect => cases h
  | error fault => exact ⟨rfl, rfl⟩

/-- Whatever fails, although it works in place, leaves the machine as it was.  An instruction and a
load have told nothing by then either. -/
theorem machine_of_failure
    (m : Machine) (fault : Fault) :
    (∀ i, (execute i m).answer = .error fault →
      (execute i m).machine = m ∧ (execute i m).events = []) ∧
    (∀ program, (load program m).answer = .error fault →
      (load program m).machine = m ∧ (load program m).events = []) ∧
    ((step m).answer = .error fault → (step m).machine = m) ∧
    ((cycle m).answer = .error fault → (cycle m).machine = m) := by
  refine ⟨?_, ?_, ?_, ?_⟩
  · intro i
    rw [execute_eq]
    exact settled_of_error m
  · intro program
    rw [load_eq]
    exact settled_of_error m
  · rw [step_eq]
    exact Machine.step_machine_of_error
  · rw [cycle_eq]
    intro h
    rw [Machine.cycle_of_error ((Machine.cycle_answer m).symm.trans h)]

end InPlace

end Chip8
