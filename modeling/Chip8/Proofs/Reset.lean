import Chip8.Proofs.Tone

/-!
# Reset as a power cycle

A reset brings each part of the machine back on its own, and power-on sets each part on its own.
`Machine.Fresh` says part by part what a machine is like that has just been switched on, and
`fresh_iff` shows that it leaves nothing open but the random stream.  So a machine that was reset
and a new machine with the same random stream are one and the same, and nothing that a host does
later tells them apart.
-/

namespace Chip8

attribute [ext] CallStack Keypad Screen Machine

namespace Machine

/-- The machine has done nothing since it was switched on. -/
structure Fresh (m : Machine) : Prop where
  memory : ∀ addr,
    m.memory.byte addr =
      if 0x050 ≤ addr ∧ addr < 0x0A0 then Memory.glyphs[addr - 0x050]?.getD 0 else 0
  depth : m.stack.depth = 0
  cells : ∀ (place : Nat) (h : place < 16), m.stack.cells[place] = 0
  index : m.index = 0
  pc : m.pc = 0x200
  registers : ∀ x, m.register x = 0
  pixels : ∀ x y, m.screen.pixel x y = false
  dirty : m.screen.isDirty = true
  delay : m.delay = 0
  sound : m.sound = 0
  keys : ∀ key : Key, m.keypad.isDown key.val = false
  latch : m.keypad.latch = .idle
  mode : m.mode = .running
  unrecognized : m.unrecognized = 0

variable {m : Machine}

@[simp] theorem powerOn_random (random : Random.Stream) : (powerOn random).random = random := rfl

theorem fresh_powerOn
    (random : Random.Stream) :
    (powerOn random).Fresh where
  memory := Memory.byte_initial
  depth := rfl
  cells := by
    intro place hplace
    simp [powerOn, CallStack.empty]
  index := rfl
  pc := rfl
  registers := by
    intro x
    simp [powerOn, register, Vector.get]
  pixels := Screen.blank.pixel_clear
  dirty := rfl
  delay := rfl
  sound := rfl
  keys := by
    intro key
    simp [powerOn, Keypad.isDown_val, Keypad.released]
  latch := rfl
  mode := rfl
  unrecognized := rfl

/-- Nothing is left open of a fresh machine but its random stream. -/
theorem fresh_iff :
    m.Fresh ↔ m = powerOn m.random := by
  constructor
  · intro h
    have hpowerOn := fresh_powerOn m.random
    ext1
    case memory =>
      apply Memory.eq_of_byte_eq
      intro addr
      rw [h.memory, hpowerOn.memory]
    case stack =>
      ext1
      case cells =>
        ext1 place hplace
        rw [h.cells place hplace, hpowerOn.cells place hplace]
      case depth => exact h.depth
    case v =>
      ext1 x hx
      exact (h.registers ⟨x, hx⟩).trans (hpowerOn.registers ⟨x, hx⟩).symm
    case screen =>
      ext1
      case pixels =>
        apply Screen.pixels_eq_of_pixel_eq
        intro x y
        rw [h.pixels, hpowerOn.pixels]
      case isDirty => exact h.dirty
    case keypad =>
      ext1
      case down =>
        ext1 key hkey
        have hup := h.keys ⟨key, hkey⟩
        have hup' := hpowerOn.keys ⟨key, hkey⟩
        rw [Keypad.isDown_val] at hup hup'
        exact hup.trans hup'.symm
      case latch => exact h.latch
    case index => exact h.index
    case pc => exact h.pc
    case delay => exact h.delay
    case sound => exact h.sound
    case mode => exact h.mode
    case unrecognized => exact h.unrecognized
    case random => exact (powerOn_random m.random).symm
  · intro h
    have hfresh := fresh_powerOn m.random
    rwa [← h] at hfresh

/-- Whatever the machine did before, a reset takes it back to power-on and keeps only the random
stream. -/
theorem reset_machine
    (m : Machine) :
    m.reset.machine = powerOn m.random :=
  rfl

end Machine

namespace Emulator

/-- What a host is told, and what becomes of the machine, has nothing to do with who listens. -/
theorem performAll_eq_of_machine_eq
    {e f : Emulator} (h : e.machine = f.machine) (actions : List Action) :
    (e.performAll actions).1.answer = (f.performAll actions).1.answer ∧
      (e.performAll actions).2.machine = (f.performAll actions).2.machine := by
  have houtcome := congrArg (·.performAll actions) h
  exact ⟨congrArg Outcome.answer houtcome, congrArg Outcome.machine houtcome⟩

/-- Those who listen stay the same. -/
theorem perform_listeners
    (e : Emulator) (action : Action) :
    (e.perform action).2.speaker = e.speaker ∧ (e.perform action).2.threshold = e.threshold :=
  ⟨rfl, rfl⟩

/-- Every speaker takes notice of a tone that stops. -/
theorem heard_reset
    (e : Emulator) :
    (e.perform .reset).1.heard =
      if e.speaker.isSome ∧ e.machine.sound ≠ 0 then [.stop] else [] := by
  have htones := e.machine.reset_tones
  have hheard : (e.perform .reset).1.heard = e.heard e.machine.reset.events := rfl
  rw [hheard, heard]
  cases e.speaker with
  | none => rfl
  | some speaker =>
      simp only [htones, Option.isSome_some, true_and]
      by_cases hsound : e.machine.sound = 0
      · simp [Tone.edge, hsound]
      · cases speaker <;> simp [Tone.edge, hsound, Speaker.hears]

/-- A reset is a full power cycle.  Whatever state the emulator was in, its machine is then as one
that has just been switched on; only the random stream goes on from where it was, those who listen
still do, and a speaker hears one stop if the tone was sounding and nothing if not.  From there on
the emulator answers every sequence of requests like a new one that was given the same random
stream, and its machine is always in the same state as the new one's. -/
theorem reset_is_power_cycle
    (e : Emulator) :
    let reset := (e.perform .reset).2
    reset.machine.Fresh ∧
      reset.machine.random = e.machine.random ∧
      reset.speaker = e.speaker ∧
      reset.threshold = e.threshold ∧
      (e.perform .reset).1.heard =
        (if e.speaker.isSome ∧ e.machine.sound ≠ 0 then [.stop] else []) ∧
      ∀ threshold : Option Severity,
        let new := (powerOn e.machine.random threshold).2
        reset.machine = new.machine ∧
          ∀ later : List Action,
            (reset.performAll later).1.answer = (new.performAll later).1.answer ∧
              (reset.performAll later).2.machine = (new.performAll later).2.machine := by
  intro reset
  have hmachine : reset.machine = Machine.powerOn e.machine.random := e.machine.reset_machine
  have hrandom : reset.machine.random = e.machine.random := by
    rw [hmachine, Machine.powerOn_random]
  obtain ⟨hspeaker, hthreshold⟩ := e.perform_listeners .reset
  refine ⟨?_, hrandom, hspeaker, hthreshold, e.heard_reset, ?_⟩
  · rw [Machine.fresh_iff, hrandom]
    exact hmachine
  · intro threshold new
    have hnew : reset.machine = new.machine := by
      rw [hmachine]
      rfl
    exact ⟨hnew, performAll_eq_of_machine_eq hnew⟩

end Emulator

end Chip8
