import Chip8.Machine.Action
import Chip8.Proofs.Frame

/-!
# What a step can do

A step comes to one of six things, listed in `Machine.Stepped`: it finds the key press that it was
waiting for, it waits on, it has nothing to fetch, it passes over a word, it carries out an
instruction, or the instruction fails.  A cycle is a step with a tick behind it unless the step
failed.  Properties of steps and cycles are proved by going through this list and the frame of the
instruction.
-/

namespace Chip8

namespace Machine

/-- The instruction that the next step carries out or fails to carry out, if there is one. -/
def next? (m : Machine) : Option (Instruction Register) :=
  match m.mode, m.fetch with
  | .running, .ok word => Instruction.ofWord? word
  | _, _ => none

/-- The word that the next step passes over because it is no instruction, if there is one. -/
def passedOver? (m : Machine) : Option UInt16 :=
  match m.mode, m.fetch with
  | .running, .ok word => if Instruction.ofWord? word = none then some word else none
  | _, _ => none

/-- The outcomes of a step on `m`, each with the circumstances in which it is the outcome. -/
inductive Stepped (m : Machine) : Outcome StepResult → Prop
  /-- The key press that was waited for has been caught. -/
  | resolved {x : Register} {key : Key} :
      m.mode = .awaitingKey x → m.keypad.latch = .caught key →
      Stepped m
        { answer := .ok none
          machine :=
            { (m.setRegister x (UInt8.ofNat key.val)).advance with
              keypad := m.keypad.stopListening
              mode := .running }
          events := [.note (.resolved x key)] }
  /-- No key press has been caught yet. -/
  | waiting {x : Register} :
      m.mode = .awaitingKey x → (∀ key, m.keypad.latch ≠ .caught key) →
      Stepped m ⟨.ok none, m, []⟩
  /-- The program counter has left memory. -/
  | outside :
      m.mode = .running → Memory.size ≤ m.pc.toNat + 1 →
      Stepped m ⟨.error (.fetchOutOfBounds m.pc), m, []⟩
  /-- The word is no instruction. -/
  | skipped {word : UInt16} :
      m.mode = .running → m.fetch = .ok word → Instruction.ofWord? word = none →
      Stepped m (m.skipWord word)
  /-- The word is an instruction and it succeeds. -/
  | executed {word : UInt16} {i : Instruction Register} {e : Effect} :
      m.mode = .running → m.fetch = .ok word → Instruction.ofWord? word = some i →
      m.execute i = .ok e →
      Stepped m ⟨.ok (some i), e.machine, .note (.executing m.pc word i.recorded) :: e.events⟩
  /-- The word is an instruction and it fails. -/
  | failed {word : UInt16} {i : Instruction Register} {fault : Fault} :
      m.mode = .running → m.fetch = .ok word → Instruction.ofWord? word = some i →
      m.execute i = .error fault →
      Stepped m ⟨.error fault, m, [.note (.executing m.pc word i.recorded)]⟩

/-! ## Fetching -/

theorem fetch_eq_error
    {m : Machine} (h : Memory.size ≤ m.pc.toNat + 1) :
    m.fetch = .error (.fetchOutOfBounds m.pc) := by
  have hnot : ¬ m.pc.toNat + 1 < Memory.size := by omega
  simp [fetch, hnot]

theorem fetch_cases
    (m : Machine) :
    (Memory.size ≤ m.pc.toNat + 1 ∧ m.fetch = .error (.fetchOutOfBounds m.pc)) ∨
      (m.pc.toNat + 1 < Memory.size ∧ ∃ word, m.fetch = .ok word) := by
  by_cases h : m.pc.toNat + 1 < Memory.size
  · exact .inr ⟨h, by simp [fetch, h]⟩
  · have hle : Memory.size ≤ m.pc.toNat + 1 := by omega
    exact .inl ⟨hle, fetch_eq_error hle⟩

/-- A word can be fetched only where both its bytes lie in memory. -/
theorem pc_lt_of_fetch
    {m : Machine} {word : UInt16} (h : m.fetch = .ok word) :
    m.pc.toNat + 1 < Memory.size := by
  rcases m.fetch_cases with ⟨-, herror⟩ | ⟨hlt, -⟩
  · rw [herror] at h
    cases h
  · exact hlt

/-! ## Steps -/

theorem next?_eq_some_iff
    {m : Machine} {i : Instruction Register} :
    m.next? = some i ↔
      m.mode = .running ∧ ∃ word, m.fetch = .ok word ∧ Instruction.ofWord? word = some i := by
  unfold next?
  cases hmode : m.mode with
  | awaitingKey x => simp
  | running =>
      rcases m.fetch_cases with ⟨-, hfetch⟩ | ⟨-, word, hfetch⟩ <;> simp [hfetch]

theorem step_of_next?
    {m : Machine} {i : Instruction Register} (h : m.next? = some i) :
    ∃ word, m.fetch = .ok word ∧ m.step = m.executeWord word i := by
  obtain ⟨hmode, word, hfetch, hword⟩ := next?_eq_some_iff.mp h
  exact ⟨word, hfetch, by simp [step, hmode, hfetch, hword]⟩

theorem passedOver?_eq_some_iff
    {m : Machine} {word : UInt16} :
    m.passedOver? = some word ↔
      m.mode = .running ∧ m.fetch = .ok word ∧ Instruction.ofWord? word = none := by
  unfold passedOver?
  cases hmode : m.mode with
  | awaitingKey x => simp
  | running =>
      rcases m.fetch_cases with ⟨-, hfetch⟩ | ⟨-, fetched, hfetch⟩
      · simp [hfetch]
      · simp only [hfetch, Option.ite_none_right_eq_some, Option.some.injEq, Except.ok.injEq,
          true_and]
        constructor
        · rintro ⟨hnone, rfl⟩
          exact ⟨rfl, hnone⟩
        · rintro ⟨rfl, hnone⟩
          exact ⟨hnone, rfl⟩

theorem step_of_passedOver?
    {m : Machine} {word : UInt16} (h : m.passedOver? = some word) :
    m.step = m.skipWord word := by
  obtain ⟨hmode, hfetch, hword⟩ := passedOver?_eq_some_iff.mp h
  simp only [step, hmode, hfetch, hword]

theorem step_of_waiting
    {m : Machine} {x : Register}
    (hmode : m.mode = .awaitingKey x) (hlatch : ∀ key, m.keypad.latch ≠ .caught key) :
    m.step = ⟨.ok none, m, []⟩ := by
  cases h : m.keypad.latch with
  | caught key => exact absurd h (hlatch key)
  | idle => simp [step, hmode, resolveWait, Keypad.takePress, h, silently]
  | armed => simp [step, hmode, resolveWait, Keypad.takePress, h, silently]

theorem step_of_caught
    {m : Machine} {x : Register} {key : Key}
    (hmode : m.mode = .awaitingKey x) (hlatch : m.keypad.latch = .caught key) :
    m.step =
      { answer := .ok none
        machine :=
          { (m.setRegister x (UInt8.ofNat key.val)).advance with
            keypad := m.keypad.stopListening
            mode := .running }
        events := [.note (.resolved x key)] } := by
  simp [step, hmode, resolveWait, Keypad.takePress, hlatch]

theorem stepped_awaiting
    {m : Machine} {x : Register} (hmode : m.mode = .awaitingKey x) :
    m.Stepped m.step := by
  by_cases hcaught : ∃ key, m.keypad.latch = .caught key
  · obtain ⟨key, hlatch⟩ := hcaught
    rw [step_of_caught hmode hlatch]
    exact .resolved hmode hlatch
  · have hlatch : ∀ key, m.keypad.latch ≠ .caught key := fun key h => hcaught ⟨key, h⟩
    rw [step_of_waiting hmode hlatch]
    exact .waiting hmode hlatch

theorem stepped_executeWord
    {m : Machine} {word : UInt16} {i : Instruction Register}
    (hmode : m.mode = .running) (hfetch : m.fetch = .ok word)
    (hword : Instruction.ofWord? word = some i) :
    m.Stepped (m.executeWord word i) := by
  unfold executeWord
  cases hexecute : m.execute i with
  | ok e => exact .executed hmode hfetch hword hexecute
  | error fault => exact .failed hmode hfetch hword hexecute

/-- The list of outcomes is complete. -/
theorem stepped_step (m : Machine) : m.Stepped m.step := by
  cases hmode : m.mode with
  | awaitingKey x => exact stepped_awaiting hmode
  | running =>
      rcases m.fetch_cases with ⟨hle, hfetch⟩ | ⟨-, word, hfetch⟩
      · simp only [step, hmode, hfetch]
        exact .outside hmode hle
      · simp only [step, hmode, hfetch]
        cases hword : Instruction.ofWord? word with
        | none => exact .skipped hmode hfetch hword
        | some i => exact stepped_executeWord hmode hfetch hword

/-- A step that carries out no instruction looks for a key press or passes over a word. -/
theorem step_answer_eq_ok_none_iff
    {m : Machine} :
    m.step.answer = .ok none ↔ m.isAwaitingKey = true ∨ m.passedOver?.isSome = true := by
  rw [isAwaitingKey, decide_eq_true_eq, Option.isSome_iff_exists]
  constructor
  · intro h
    have hstep := m.stepped_step
    generalize m.step = stepped at h hstep
    cases hstep with
    | resolved hmode => exact .inl (by simp [hmode])
    | waiting hmode => exact .inl (by simp [hmode])
    | skipped hmode hfetch hword =>
        exact .inr ⟨_, passedOver?_eq_some_iff.mpr ⟨hmode, hfetch, hword⟩⟩
    | _ => cases h
  · rintro (hmode | ⟨word, hword⟩)
    · cases hm : m.mode with
      | running => exact absurd hm hmode
      | awaitingKey x => simp only [step, hm]
    · rw [step_of_passedOver? hword]
      rfl

/-- A step that fails leaves the machine as it was. -/
theorem step_machine_of_error
    {m : Machine} {fault : Fault} (h : m.step.answer = .error fault) :
    m.step.machine = m := by
  have hstep := m.stepped_step
  generalize m.step = stepped at h hstep ⊢
  cases hstep with
  | outside => rfl
  | failed => rfl
  | _ => cases h

/-! ## Ticks -/

theorem toNat_countDown
    (t : UInt8) :
    (if t = 0 then 0 else t - 1).toNat = t.toNat - 1 := by
  split
  next hzero => simp [hzero]
  next hne =>
    have hle : 1 ≤ t := by
      rw [UInt8.le_iff_toNat_le]
      have : t.toNat ≠ 0 := fun h => hne (UInt8.toNat_inj.mp h)
      simp only [UInt8.toNat_one]
      omega
    rw [UInt8.toNat_sub_of_le _ _ hle, UInt8.toNat_one]

theorem toNat_delay_tick (m : Machine) : m.tick.machine.delay.toNat = m.delay.toNat - 1 :=
  toNat_countDown m.delay

theorem toNat_sound_tick (m : Machine) : m.tick.machine.sound.toNat = m.sound.toNat - 1 :=
  toNat_countDown m.sound

/-! ## Cycles -/

theorem cycle_of_ok
    {m : Machine} {i : Option (Instruction Register)} (h : m.step.answer = .ok i) :
    m.cycle =
      ⟨.ok i, m.step.machine.tick.machine, m.step.events ++ m.step.machine.tick.events⟩ := by
  simp [cycle, h]

/-- No time passes in a cycle that fails. -/
theorem cycle_of_error
    {m : Machine} {fault : Fault} (h : m.step.answer = .error fault) :
    m.cycle = ⟨.error fault, m, m.step.events ++ [.note (.halted m.pc fault)]⟩ := by
  simp [cycle, h, step_machine_of_error h]

/-- A cycle answers what its step answers. -/
theorem cycle_answer (m : Machine) : m.cycle.answer = m.step.answer := by
  cases h : m.step.answer with
  | ok i => rw [cycle_of_ok h]
  | error fault => rw [cycle_of_error h]

/-- What steps and ticks preserve, cycles preserve. -/
theorem cycle_induction
    {P : Machine → Prop} {m : Machine}
    (hm : P m) (hstep : P m.step.machine) (htick : ∀ m, P m → P m.tick.machine) :
    P m.cycle.machine := by
  cases h : m.step.answer with
  | ok i =>
      rw [cycle_of_ok h]
      exact htick _ hstep
  | error fault =>
      rw [cycle_of_error h]
      exact hm

end Machine

end Chip8
