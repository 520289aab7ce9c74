import Chip8.Emulator
import Chip8.Proofs.Step

/-!
# Histories

The requests that a host may make are sorted here by what they are about, and
`Emulator.Reachable` holds the emulators that a host can come to, from power-on, with requests of a
given sort.  A property of machines that power-on has and every such request preserves holds of
all of them.
-/

namespace Chip8

namespace Action

/-- The requests that run the program. -/
def runs : Action → Bool
  | cycle => true
  | step => true
  | _ => false

/-- The requests that press or release keys. -/
def movesKeys : Action → Bool
  | press _ => true
  | release _ => true
  | setKey .. => true
  | pollKeys _ => true
  | _ => false

/-- How often a request counts the timers down, unless it fails. -/
def ticks : Action → Nat
  | tick => 1
  | cycle => 1
  | _ => 0

/-- The requests to the emulator as a whole, not straight to its keypad. -/
def sparesKeypad : Action → Bool
  | keypad _ => false
  | _ => true

/-- The requests that leave it to the program which instructions are carried out. -/
def followsProgram : Action → Bool
  | execute _ => false
  | _ => true

/-- What a host is told of the result of a step when it has asked for a cycle, or for a step. -/
def report : Action → StepResult → Reply
  | cycle, result => .cycled result
  | _, result => .ofExcept result

/-- Reports tell which fault there was, and that there was none. -/
theorem report_eq_report_error_iff
    {action : Action} {result : StepResult} {fault : Fault} :
    action.report result = action.report (.error fault) ↔ result = .error fault := by
  cases action <;> cases result <;> simp [report, Reply.ofExcept]

end Action

namespace Machine

theorem perform_answer_of_runs
    {m : Machine} {action : Action} (h : action.runs = true) :
    (m.perform action).answer = action.report m.step.answer := by
  cases action with
  | cycle => simp [perform, Action.report, cycle_answer]
  | step => rfl
  | _ => cases h

/-! ## What a request leaves behind -/

/-- A request that runs the program, if the step succeeds, leaves what the step leaves, perhaps with
a tick behind it. -/
theorem perform_of_runs
    {m : Machine} {action : Action} (hruns : action.runs = true)
    {i : Option (Instruction Register)} (hok : m.step.answer = .ok i)
    {P : Nat → Machine → Prop} {n : Nat} (hstep : P n m.step.machine)
    (htick : ∀ m, P n m → P (n + 1) m.tick.machine) :
    P (n + action.ticks) (m.perform action).machine := by
  cases action with
  | cycle =>
      simp only [perform, cycle_of_ok hok]
      exact htick _ hstep
  | step => exact hstep
  | _ => cases hruns

/-- A request that runs the program leaves what no tick touches as the step leaves it. -/
theorem perform_eq_step_of_runs
    {α : Type} {f : Machine → α} (htick : ∀ m, f m.tick.machine = f m)
    (m : Machine) {action : Action} (hruns : action.runs = true) :
    f (m.perform action).machine = f m.step.machine := by
  cases action with
  | cycle =>
      cases hanswer : m.step.answer with
      | ok i => simp only [perform, cycle_of_ok hanswer, htick]
      | error fault => simp only [perform, cycle_of_error hanswer, step_machine_of_error hanswer]
  | step => rfl
  | _ => cases hruns

/-- What holds before a request that may fail, and after it if it succeeds, holds after it. -/
theorem attempt_induction
    {P : Machine → Prop} {m : Machine} {result : Except Fault Effect}
    (hm : P m) (hok : ∀ e, result = .ok e → P e.machine) :
    P (m.attempt result).machine := by
  cases result with
  | ok e => exact hok e rfl
  | error fault => exact hm

theorem load_eq_ok
    {m : Machine} {program : List UInt8} {e : Effect} (h : m.load program = .ok e) :
    e =
      { machine := { m with memory := m.memory.write Memory.programStart program }
        events := [.note (.loaded program.length)] } := by
  unfold load at h
  split at h
  · cases h
  · exact (Except.ok.inj h).symm

theorem load_of_fits
    (m : Machine) {program : List UInt8} (h : program.length ≤ 3584) :
    m.load program =
      .ok
        { machine := { m with memory := m.memory.write Memory.programStart program }
          events := [.note (.loaded program.length)] } := by
  have hnot : ¬ Memory.programCapacity < program.length := by
    show ¬ 3584 < program.length
    omega
  rw [load, if_neg hnot]

theorem load_of_tooLong
    (m : Machine) {program : List UInt8} (h : 3584 < program.length) :
    m.load program = .error (.loadCapacity program.length 3584) := by
  have hlt : Memory.programCapacity < program.length := h
  rw [load, if_pos hlt]
  rfl

theorem cancelWait_cases
    (m : Machine) :
    (m.mode = .running ∧ m.cancelWait = ⟨false, m, []⟩) ∨
      ∃ x, m.mode = .awaitingKey x ∧
        m.cancelWait =
          { answer := true
            machine := { m.advance with keypad := m.keypad.stopListening, mode := .running }
            events := [.note (.cancelled x)] } := by
  cases hmode : m.mode with
  | running => exact .inl ⟨rfl, by simp only [cancelWait, hmode]⟩
  | awaitingKey x => exact .inr ⟨x, rfl, by simp only [cancelWait, hmode]⟩

/-- A machine that was switched on and given a program. -/
def booted (program : List UInt8) : Machine :=
  ((powerOn (Random.Stream.ofSeed 0)).perform (.load program)).machine

/-! ## One request after the other -/

theorem performAll_cons
    (m : Machine) (action : Action) (actions : List Action) :
    m.performAll (action :: actions) =
      { answer :=
          (m.perform action).answer :: ((m.perform action).machine.performAll actions).answer
        machine := ((m.perform action).machine.performAll actions).machine
        events :=
          (m.perform action).events ++ ((m.perform action).machine.performAll actions).events } :=
  rfl

theorem performAll_append
    (m : Machine) (first second : List Action) :
    m.performAll (first ++ second) =
      { answer :=
          (m.performAll first).answer ++ ((m.performAll first).machine.performAll second).answer
        machine := ((m.performAll first).machine.performAll second).machine
        events :=
          (m.performAll first).events ++
            ((m.performAll first).machine.performAll second).events } := by
  induction first generalizing m with
  | nil => rfl
  | cons action first ih => simp [performAll_cons, ih]

end Machine

namespace Emulator

/-- The emulators that a host can come to from power-on, in any number of calls, if each request
is an allowed one.  A speaker may be attached at any time. -/
inductive Reachable (allowed : Action → Bool) : Emulator → Prop
  | powerOn (random : Random.Stream) (threshold : Option Severity) :
      Reachable allowed (powerOn random threshold).2
  | attach {e : Emulator} (speaker : Speaker) :
      Reachable allowed e → Reachable allowed (e.attach speaker)
  | perform {e : Emulator} {action : Action} :
      Reachable allowed e → allowed action = true → Reachable allowed (e.perform action).2

/-- What holds at power-on and is preserved by every allowed request holds of every machine that
can be come to. -/
theorem Reachable.machine_induction
    {allowed : Action → Bool} {P : Machine → Prop}
    (hpowerOn : ∀ random, P (Machine.powerOn random))
    (hperform : ∀ m action, allowed action = true → P m → P (m.perform action).machine)
    {e : Emulator} (h : Reachable allowed e) :
    P e.machine := by
  induction h with
  | powerOn random threshold => exact hpowerOn random
  | attach speaker _ ih => exact ih
  | perform _ hallowed ih => exact hperform _ _ hallowed ih

end Emulator

end Chip8
