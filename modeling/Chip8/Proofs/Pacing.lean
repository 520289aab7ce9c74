import Chip8.Proofs.Tone
import Chip8.Proofs.Unread

/-!
# Steps and ticks at their own pace

A host may count the timers down at a rate of its own.  How its ticks fall between the steps makes a
difference to an instruction that uses a timer and to nothing else: a tick can be moved past any
other step, and so past all of them.  A cycle is one way to pace them, with a tick behind each step
that succeeds.
-/

namespace Chip8

/-- The sequences of `n` steps and `k` ticks, in any order. -/
inductive Action.Interleaved : Nat → Nat → List Action → Prop
  | none : Interleaved 0 0 []
  | step {n k : Nat} {actions : List Action} :
      Interleaved n k actions → Interleaved (n + 1) k (.step :: actions)
  | tick {n k : Nat} {actions : List Action} :
      Interleaved n k actions → Interleaved n (k + 1) (.tick :: actions)

namespace Machine

/-- None of the next `n` steps uses a timer. -/
def SparesTimersFor (n : Nat) (m : Machine) : Prop :=
  ∀ j < n, (m.performAll (List.replicate j .step)).machine.SparesTimers

instance (n : Nat) (m : Machine) : Decidable (m.SparesTimersFor n) :=
  inferInstanceAs
    (Decidable (∀ j < n, (m.performAll (List.replicate j .step)).machine.SparesTimers))

/-- The results of the steps among some requests. -/
def stepResults : Machine → List Action → List StepResult
  | _, [] => []
  | m, action :: actions =>
    let others := (m.perform action).machine.stepResults actions
    if action = .step then m.step.answer :: others else others

variable {m : Machine} {n : Nat}

/-! ## One step and one tick -/

theorem tick_machine_eq
    (m : Machine) :
    m.tick.machine =
      m.withTimers (if m.delay = 0 then 0 else m.delay - 1)
        (if m.sound = 0 then 0 else m.sound - 1) :=
  rfl

/-- What a tick does depends on the timers alone. -/
theorem tick_machine_of_timers_eq
    {other : Machine} (hdelay : other.delay = m.delay) (hsound : other.sound = m.sound) :
    other.tick.machine =
        other.withTimers m.tick.machine.delay m.tick.machine.sound ∧
      other.tick.events = m.tick.events := by
  constructor
  · rw [tick_machine_eq, hdelay, hsound]
    rfl
  · simp only [tick, hsound]

theorem SparesTimers.tick
    (h : m.SparesTimers) :
    m.tick.machine.SparesTimers :=
  h

/-- A tick can be moved past a step that does not use a timer. -/
theorem SparesTimers.step_tick
    (h : m.SparesTimers) :
    m.tick.machine.step = m.step.mapMachine (fun other => other.tick.machine) ∧
      m.step.machine.tick.events = m.tick.events := by
  obtain ⟨hdelay, hsound⟩ := h.step
  obtain ⟨hmachine, hevents⟩ := tick_machine_of_timers_eq hdelay hsound
  refine ⟨?_, hevents⟩
  rw [tick_machine_eq, h.step_withTimers, Outcome.mapMachine, Outcome.mapMachine, hmachine]
  rfl

theorem SparesTimers.step_tones_eq_nil
    (h : m.SparesTimers) :
    m.step.events.filterMap Event.tone? = [] := by
  rw [m.step_tones, h.step.2, Tone.edge_self]

/-! ## All steps -/

theorem SparesTimersFor.head
    (h : m.SparesTimersFor (n + 1)) :
    m.SparesTimers :=
  h 0 (Nat.zero_lt_succ n)

theorem SparesTimersFor.tail
    (h : m.SparesTimersFor (n + 1)) :
    m.step.machine.SparesTimersFor n := by
  intro j hj
  exact h (j + 1) (Nat.succ_lt_succ hj)

theorem performAll_replicate_succ
    (m : Machine) (n : Nat) :
    m.performAll (List.replicate (n + 1) .step) =
      { answer := .ofExcept m.step.answer ::
          (m.step.machine.performAll (List.replicate n .step)).answer
        machine := (m.step.machine.performAll (List.replicate n .step)).machine
        events := m.step.events ++
          (m.step.machine.performAll (List.replicate n .step)).events } :=
  rfl

/-- A tick can be moved past all the steps. -/
theorem SparesTimersFor.performAll_tick
    (h : m.SparesTimersFor n) :
    m.tick.machine.performAll (List.replicate n .step) =
        (m.performAll (List.replicate n .step)).mapMachine (fun other => other.tick.machine) ∧
      (m.performAll (List.replicate n .step)).machine.tick.events = m.tick.events ∧
      m.tick.machine.stepResults (List.replicate n .step) =
        m.stepResults (List.replicate n .step) := by
  induction n generalizing m with
  | zero => exact ⟨rfl, rfl, rfl⟩
  | succ n ih =>
      obtain ⟨hstep, hevents⟩ := h.head.step_tick
      obtain ⟨hrun, hevents', hresults⟩ := ih h.tail
      have hmachine : m.tick.machine.step.machine = m.step.machine.tick.machine := by
        rw [hstep]
        rfl
      refine ⟨?_, ?_, ?_⟩
      · rw [performAll_replicate_succ, performAll_replicate_succ, hmachine, hrun, hstep]
        rfl
      · rw [performAll_replicate_succ, hevents', hevents]
      · change m.tick.machine.step.answer ::
            m.tick.machine.step.machine.stepResults (List.replicate n .step) = _
        rw [hmachine, hresults, hstep]
        rfl

theorem SparesTimersFor.tick
    (h : m.SparesTimersFor n) :
    m.tick.machine.SparesTimersFor n := by
  intro j hj
  have hfirst : m.SparesTimersFor j := fun k hk => h k (Nat.lt_trans hk hj)
  rw [hfirst.performAll_tick.1]
  exact (h j hj).tick

theorem SparesTimersFor.performAll_tones_eq_nil
    (h : m.SparesTimersFor n) :
    (m.performAll (List.replicate n .step)).events.filterMap Event.tone? = [] := by
  induction n generalizing m with
  | zero => rfl
  | succ n ih =>
      rw [performAll_replicate_succ, List.filterMap_append, h.head.step_tones_eq_nil, ih h.tail]
      rfl

/-! ## Interleavings -/

/-- In any order, the steps and the ticks come to what the steps come to and then the ticks. -/
theorem performAll_interleaved
    {k : Nat} {actions : List Action} (hactions : Action.Interleaved n k actions)
    (h : m.SparesTimersFor n) :
    let stepped := m.performAll (List.replicate n .step)
    let ticked := stepped.machine.performAll (List.replicate k .tick)
    (m.performAll actions).machine = ticked.machine ∧
      m.stepResults actions = m.stepResults (List.replicate n .step) ∧
      (m.performAll actions).events.filterMap Event.tone? =
        ticked.events.filterMap Event.tone? ∧
      (m.performAll actions).events.Perm (stepped.events ++ ticked.events) := by
  induction hactions generalizing m with
  | none => exact ⟨rfl, rfl, rfl, .refl _⟩
  | @step n k actions _ ih =>
      obtain ⟨hmachine, hresults, htones, hevents⟩ := ih h.tail
      refine ⟨hmachine, congrArg (m.step.answer :: ·) hresults, ?_, ?_⟩
      · have hstep : (m.perform .step).events.filterMap Event.tone? = [] :=
          h.head.step_tones_eq_nil
        rw [performAll_cons, List.filterMap_append, hstep]
        exact htones
      · rw [performAll_cons, performAll_replicate_succ, List.append_assoc]
        exact hevents.append_left m.step.events
  | @tick n k actions _ ih =>
      obtain ⟨hmachine, hresults, htones, hevents⟩ := ih h.tick
      obtain ⟨hrun, hticks, hresults'⟩ := h.performAll_tick
      rw [hrun] at hmachine htones hevents
      have hticked : ∀ other : Machine,
          (other.performAll (List.replicate (k + 1) .tick)).events =
            other.tick.events ++
              (other.tick.machine.performAll (List.replicate k .tick)).events :=
        fun _ => rfl
      have hcons : (m.performAll (.tick :: actions)).events =
          m.tick.events ++ (m.tick.machine.performAll actions).events := rfl
      refine ⟨hmachine, hresults.trans hresults', ?_, ?_⟩
      · rw [hcons, hticked, hticks, List.filterMap_append, List.filterMap_append, htones]
        rfl
      · rw [hcons, hticked, hticks]
        exact (hevents.append_left m.tick.events).trans (List.perm_append_comm_assoc ..)

/-- Steps and ticks can be paced independently.  If none of a number of steps uses a timer, then
however ticks are put between them the machine ends up the same, each step has the same result, the
speaker hears the same tones and the log is given the same notes, if not in the same order.  And a
cycle comes to a step and one tick if the step succeeds, and to the step alone if it fails. -/
theorem pacing_is_independent
    (m : Machine) :
    (∀ (n k : Nat) (actions : List Action),
      Action.Interleaved n k actions → m.SparesTimersFor n →
      let steps := List.replicate n Action.step
      let ticks := List.replicate k Action.tick
      let result := m.performAll actions
      let apart := m.performAll (steps ++ ticks)
      result.machine = apart.machine ∧
        m.stepResults actions = m.stepResults steps ∧
        result.events.filterMap Event.tone? = apart.events.filterMap Event.tone? ∧
        result.events.Perm apart.events) ∧
    (∀ i, m.step.answer = .ok i →
      m.cycle.answer = .ok i ∧
        m.cycle.machine = (m.performAll [.step, .tick]).machine ∧
        m.cycle.events = (m.performAll [.step, .tick]).events) ∧
    ∀ fault, m.step.answer = .error fault →
      m.cycle.answer = .error fault ∧
        m.cycle.machine = (m.performAll [.step]).machine ∧
        m.cycle.events = (m.performAll [.step]).events ++ [.note (.halted m.pc fault)] := by
  refine ⟨?_, ?_, ?_⟩
  · intro n k actions hactions hspares steps ticks result apart
    obtain ⟨hmachine, hresults, htones, hevents⟩ := performAll_interleaved hactions hspares
    have happart : apart = _ := m.performAll_append steps ticks
    rw [happart]
    refine ⟨hmachine, hresults, ?_, hevents⟩
    rw [htones, List.filterMap_append, hspares.performAll_tones_eq_nil]
    rfl
  · intro i hanswer
    rw [cycle_of_ok hanswer]
    refine ⟨rfl, rfl, ?_⟩
    simp [performAll, perform, carryOut]
  · intro fault hanswer
    rw [cycle_of_error hanswer]
    refine ⟨rfl, (step_machine_of_error hanswer).symm, ?_⟩
    simp [performAll, perform]

/-- A tone of two ticks runs out while three instructions are carried out. -/
theorem pacing_of_tone_that_runs_out :
    let m := ((booted [0x60, 0x02, 0xF0, 0x18, 0xD0, 0x05, 0xFF, 0xFF, 0xF1, 0x0A]).performAll
      [.step, .step]).machine
    let actions : List Action := [.step, .tick, .step, .tick, .tick, .step]
    let apart := m.performAll [.step, .step, .step, .tick, .tick, .tick]
    m.SparesTimersFor 3 ∧
      (m.performAll actions).machine = apart.machine ∧
      (m.performAll actions).events.filterMap Event.tone? = [.stop] ∧
      apart.events.filterMap Event.tone? = [.stop] := by
  intro m actions apart
  obtain ⟨hspares, happart⟩ :
      m.SparesTimersFor 3 ∧ apart.events.filterMap Event.tone? = [.stop] := by
    decide +kernel
  obtain ⟨hinterleaved, -⟩ := m.pacing_is_independent
  obtain ⟨hmachine, -, htones, -⟩ :=
    hinterleaved 3 3 actions (.step (.tick (.step (.tick (.tick (.step .none)))))) hspares
  exact ⟨hspares, hmachine, htones.trans happart, happart⟩

end Machine

end Chip8
