import Chip8.Proofs.Step

/-!
# What a step does not read

Two parts of the machine are there for the outside: the flag of the screen, which no instruction
reads, and the timers, which only three instructions use.  When such a part is overwritten before a
step, the step still has the same answer and tells of the same events, and it leaves a machine that
differs in this part at most.  `step_mapMachine` says so of any way `f` to overwrite a part, once it
is known of single instructions.  Most instructions work on the rest of the machine alone, its core,
and `SparesCore.execute` settles them for every `f` that leaves the core alone.
-/

namespace Chip8

/-- The instructions that read a timer or set one. -/
def Instruction.usesTimer {R : Type} : Instruction R → Bool
  | register .readDelay _ => true
  | register .setDelay _ => true
  | register .setSound _ => true
  | _ => false

def Effect.mapMachine (f : Machine → Machine) (e : Effect) : Effect :=
  { e with machine := f e.machine }

def Outcome.mapMachine {α : Type} (f : Machine → Machine) (o : Outcome α) : Outcome α :=
  { o with machine := f o.machine }

namespace Screen

/-- Drawing raises the flag whether it was up or not. -/
theorem draw_clearDirty
    (s : Screen) (x y : UInt8) (sprite : List UInt8) :
    s.clearDirty.draw x y sprite = s.draw x y sprite := by
  unfold draw
  cases Sprite.litPixels x y sprite <;> rfl

end Screen

namespace Machine

/-- The machine with everything on its screen counted as shown. -/
def shown (m : Machine) : Machine :=
  m.takeDirty.2

def withTimers (m : Machine) (delay sound : UInt8) : Machine :=
  { m with delay := delay, sound := sound }

variable {m : Machine}

/-! ## The core -/

/-- `f` overwrites the screen, the timers or the count of words passed over, and what it puts there
does not depend on the rest of the machine. -/
def SparesCore (f : Machine → Machine) : Prop :=
  ∀ (m : Machine) (memory : Memory) (stack : CallStack) (index pc : UInt16)
    (v : Vector UInt8 16) (keypad : Keypad) (mode : Mode) (random : Random.Stream),
    f { m with memory, stack, index, pc, v, keypad, mode, random } =
      { f m with memory, stack, index, pc, v, keypad, mode, random }

/-- An instruction for neither the display nor the timers does not notice what lies outside the
core. -/
theorem SparesCore.execute
    {f : Machine → Machine} (hf : SparesCore f) (m : Machine) {i : Instruction Register}
    (hdisplay : i.isDisplay = false) (htimer : i.usesTimer = false) :
    (f m).execute i = (m.execute i).map (Effect.mapMachine f) := by
  have hself : f m = { f m with
      memory := m.memory, stack := m.stack, index := m.index, pc := m.pc, v := m.v,
      keypad := m.keypad, mode := m.mode, random := m.random } :=
    hf m m.memory m.stack m.index m.pc m.v m.keypad m.mode m.random
  have hmap : ∀ memory stack index pc v keypad mode random events,
      Effect.mapMachine f
          ⟨{ m with memory, stack, index, pc, v, keypad, mode, random }, events⟩ =
        ⟨{ f m with memory, stack, index, pc, v, keypad, mode, random }, events⟩ :=
    fun _ _ _ _ _ _ _ _ events => congrArg (Effect.mk · events) (hf m ..)
  rw [hself]
  cases i with
  | clearScreen => cases hdisplay
  | draw x y n => cases hdisplay
  | ret =>
      simp only [Machine.execute, ret]
      cases m.stack.pop? with
      | none => rfl
      | some popped => exact congrArg Except.ok (hmap ..).symm
  | address op addr =>
      cases op with
      | call =>
          simp only [Machine.execute, executeAddress, call]
          cases m.stack.push? (m.pc + 2) with
          | none => rfl
          | some stack => exact congrArg Except.ok (hmap ..).symm
      | _ => exact congrArg Except.ok (hmap ..).symm
  | byte op x nn => cases op <;> exact congrArg Except.ok (hmap ..).symm
  | pair op x y => cases op <;> exact congrArg Except.ok (hmap ..).symm
  | register op x =>
      cases op with
      | decimal | store | fetch =>
          simp only [Machine.execute, executeRegister, storeDecimal, storeRegisters,
            fetchRegisters, Memory.checkRange_bind]
          split
          · rfl
          · exact congrArg Except.ok (hmap ..).symm
      | readDelay | setDelay | setSound => cases htimer
      | _ => exact congrArg Except.ok (hmap ..).symm

theorem SparesCore.map_execute
    {f : Machine → Machine} (hf : SparesCore f) (hself : ∀ m, f (f m) = f m)
    (m : Machine) {i : Instruction Register}
    (hdisplay : i.isDisplay = false) (htimer : i.usesTimer = false) :
    ((f m).execute i).map (Effect.mapMachine f) = (m.execute i).map (Effect.mapMachine f) := by
  rw [hf.execute m hdisplay htimer]
  cases m.execute i with
  | error fault => rfl
  | ok e => exact congrArg (fun n => Except.ok (Effect.mk n e.events)) (hself e.machine)

/-! ## Steps and cycles -/

theorem mapMachine_executeWord
    (f : Machine → Machine) (m : Machine) (word : UInt16) (i : Instruction Register) :
    (m.executeWord word i).mapMachine f =
      match (m.execute i).map (Effect.mapMachine f) with
      | .ok e => ⟨.ok (some i), e.machine, .note (.executing m.pc word i.recorded) :: e.events⟩
      | .error fault => ⟨.error fault, f m, [.note (.executing m.pc word i.recorded)]⟩ := by
  unfold executeWord
  cases m.execute i <;> rfl

/-- A part of the machine that is not read when a key press is waited for, a word is passed over or
the next instruction is carried out is not read by a step. -/
theorem step_mapMachine
    {f : Machine → Machine} (hself : f (f m) = f m)
    (hmode : (f m).mode = m.mode) (hpc : (f m).pc = m.pc) (hfetch : (f m).fetch = m.fetch)
    (hwait : ∀ x, ((f m).resolveWait x).mapMachine f = (m.resolveWait x).mapMachine f)
    (hskip : ∀ word, ((f m).skipWord word).mapMachine f = (m.skipWord word).mapMachine f)
    (hexecute : ∀ i, m.next? = some i →
      ((f m).execute i).map (Effect.mapMachine f) = (m.execute i).map (Effect.mapMachine f)) :
    (f m).step.mapMachine f = m.step.mapMachine f := by
  cases hm : m.mode with
  | awaitingKey x =>
      have heffect := hwait x
      injection heffect with hmachine hevents
      simp only [step, hmode, hm, Outcome.mapMachine, hmachine, hevents]
  | running =>
      simp only [step, hmode, hm, hfetch]
      cases hword : m.fetch with
      | error fault => simp only [Outcome.mapMachine, hself]
      | ok word =>
          cases hi : Instruction.ofWord? word with
          | none =>
              simp only [hi]
              exact hskip word
          | some i =>
              have hnext := next?_eq_some_iff.mpr ⟨hm, word, hword, hi⟩
              simp only [hi, mapMachine_executeWord, hexecute i hnext, hself, hpc]

/-- What neither a step nor a tick reads, a cycle does not read. -/
theorem cycle_mapMachine
    {f : Machine → Machine} (hpc : (f m).pc = m.pc) (hself : f (f m) = f m)
    (hstep : (f m).step.mapMachine f = m.step.mapMachine f)
    (htick : ∀ m, (f m).tick = m.tick.mapMachine f) :
    (f m).cycle.mapMachine f = m.cycle.mapMachine f := by
  injection hstep with hanswer hmachine hevents
  cases hm : m.step.answer with
  | ok i =>
      have hticked : (f m).step.machine.tick.mapMachine f = m.step.machine.tick.mapMachine f := by
        rw [← htick, ← htick, hmachine]
      injection hticked with hmachine' hevents'
      rw [cycle_of_ok hm, cycle_of_ok (hanswer.trans hm)]
      simp only [Outcome.mapMachine, hmachine', hevents, hevents']
  | error fault =>
      rw [cycle_of_error hm, cycle_of_error (hanswer.trans hm)]
      simp only [Outcome.mapMachine, hevents, hpc, hself]

/-! ## The flag of the screen -/

@[simp] theorem shown_memory (m : Machine) : m.shown.memory = m.memory := rfl

@[simp] theorem shown_index (m : Machine) : m.shown.index = m.index := rfl

@[simp] theorem shown_keypad (m : Machine) : m.shown.keypad = m.keypad := rfl

@[simp] theorem shown_register
    (m : Machine) (x : Register) :
    m.shown.register x = m.register x := rfl

@[simp] theorem shown_screen (m : Machine) : m.shown.screen = m.screen.clearDirty := rfl

theorem sparesCore_shown : SparesCore shown :=
  fun _ _ _ _ _ _ _ _ _ => rfl

theorem execute_shown
    (m : Machine) (i : Instruction Register) :
    (m.shown.execute i).map (Effect.mapMachine shown) =
      (m.execute i).map (Effect.mapMachine shown) := by
  cases i with
  | clearScreen => rfl
  | draw x y n =>
      simp only [execute, draw, shown_index, shown_memory, shown_register, shown_screen,
        Screen.draw_clearDirty, Memory.checkRange_bind]
      split <;> rfl
  | register op x =>
      cases op with
      | readDelay | setDelay | setSound => rfl
      | _ => exact sparesCore_shown.map_execute (fun _ => rfl) m rfl rfl
  | _ => exact sparesCore_shown.map_execute (fun _ => rfl) m rfl rfl

theorem step_shown
    (m : Machine) :
    m.shown.step.mapMachine shown = m.step.mapMachine shown := by
  apply step_mapMachine rfl rfl rfl rfl
  · intro x
    simp only [resolveWait, shown_keypad]
    split <;> rfl
  · intro word
    rfl
  · intro i _
    exact m.execute_shown i

theorem tick_shown (m : Machine) : m.shown.tick = m.tick.mapMachine shown := rfl

/-- The flag of the screen has no influence on a cycle. -/
theorem cycle_shown
    (m : Machine) :
    m.shown.cycle.mapMachine shown = m.cycle.mapMachine shown :=
  cycle_mapMachine rfl rfl m.step_shown tick_shown

/-- Machines that differ in the flag at most go through a cycle alike. -/
theorem cycle_congr_shown
    {n : Machine} (h : m.shown = n.shown) :
    m.cycle.mapMachine shown = n.cycle.mapMachine shown := by
  rw [← cycle_shown, h, cycle_shown]

/-! ## The timers -/

theorem withTimers_eq_self
    {delay sound : UInt8} (hdelay : m.delay = delay) (hsound : m.sound = sound) :
    m.withTimers delay sound = m := by
  subst hdelay hsound
  rfl

theorem execute_withTimers
    (m : Machine) (delay sound : UInt8) {i : Instruction Register} (h : i.usesTimer = false) :
    ((m.withTimers delay sound).execute i).map (Effect.mapMachine (withTimers · delay sound)) =
      (m.execute i).map (Effect.mapMachine (withTimers · delay sound)) := by
  have hspares : SparesCore (withTimers · delay sound) := fun _ _ _ _ _ _ _ _ _ => rfl
  have hindex : (m.withTimers delay sound).index = m.index := rfl
  cases i with
  | clearScreen => rfl
  | draw x y n =>
      simp only [execute, draw, hindex, Memory.checkRange_bind]
      split <;> rfl
  | _ => exact hspares.map_execute (fun _ => rfl) m rfl h

/-- The next step, if it carries out an instruction, carries out one that does not use a timer. -/
def SparesTimers (m : Machine) : Prop :=
  ∀ i ∈ m.next?, i.usesTimer = false

instance (m : Machine) : Decidable m.SparesTimers :=
  inferInstanceAs (Decidable (∀ i ∈ m.next?, i.usesTimer = false))

theorem SparesTimers.step
    (h : m.SparesTimers) :
    m.step.machine.delay = m.delay ∧ m.step.machine.sound = m.sound := by
  have hstep := m.stepped_step
  generalize m.step = stepped at hstep ⊢
  cases hstep with
  | executed hmode hfetch hword hexecute =>
      have hspares := h _ (next?_eq_some_iff.mpr ⟨hmode, _, hfetch, hword⟩)
      have hframe := execute_frame hexecute
      constructor
      · apply hframe.delay
        rintro x rfl
        cases hspares
      · apply hframe.sound
        rintro x rfl
        cases hspares
  | _ => exact ⟨rfl, rfl⟩

/-- The timers have no influence on a step that does not use them, nor has the step on them. -/
theorem SparesTimers.step_withTimers
    (h : m.SparesTimers) (delay sound : UInt8) :
    (m.withTimers delay sound).step = m.step.mapMachine (withTimers · delay sound) := by
  have hsame : (m.withTimers delay sound).step.mapMachine (withTimers · delay sound) =
      m.step.mapMachine (withTimers · delay sound) := by
    apply step_mapMachine (f := (withTimers · delay sound)) rfl rfl rfl rfl
    · intro x
      have hkeypad : (m.withTimers delay sound).keypad = m.keypad := rfl
      simp only [resolveWait, hkeypad]
      split <;> rfl
    · intro word
      rfl
    · intro i hi
      exact m.execute_withTimers delay sound (h i hi)
  have hspares : (m.withTimers delay sound).SparesTimers := h
  obtain ⟨hdelay, hsound⟩ := hspares.step
  have hself := withTimers_eq_self (m := (m.withTimers delay sound).step.machine) hdelay hsound
  rw [← hsame, Outcome.mapMachine]
  exact congrArg (fun n => (⟨_, n, _⟩ : Outcome StepResult)) hself.symm

end Machine

end Chip8
