import Chip8.Proofs.History
import Mathlib.Order.Bounds.Basic

/-!
# Faults of a running program

An instruction fails for one of three causes, listed in `Machine.Obstacle`, and a running machine
also fails when its program counter has left memory.  `execute_eq_error_iff` and
`step_answer_eq_error_iff` show that these are all the causes and that each always has its effect.
A failure changes nothing, so it is there again at the next attempt.
-/

namespace Chip8

/-- The number of bytes, from the index register on, that an instruction reads or writes. -/
def Instruction.span : Instruction Register → Nat
  | .draw _ _ n => n.toNat
  | .register .decimal _ => 3
  | .register .store x => x.val + 1
  | .register .fetch x => x.val + 1
  | _ => 0

namespace Memory

/-- The addresses of a range that lie past the end of memory. -/
def pastEnd (start length : Nat) : Set Nat :=
  Set.Ico start (start + length) ∩ Set.Ici size

theorem isLeast_pastEnd_iff
    {start length addr : Nat} (hlength : 0 < length) (hsize : size < start + length) :
    IsLeast (pastEnd start length) addr ↔ addr = max start size := by
  have hleast : IsLeast (pastEnd start length) (max start size) := by
    constructor
    · refine ⟨⟨Nat.le_max_left _ _, ?_⟩, Nat.le_max_right _ _⟩
      exact Nat.max_lt.mpr ⟨by omega, hsize⟩
    · rintro other ⟨⟨hstart, -⟩, hend⟩
      exact Nat.max_le.mpr ⟨hstart, hend⟩
  constructor
  · intro h
    exact h.unique hleast
  · rintro rfl
    exact hleast

/-- An operation that succeeds behind its range check fails exactly if the check does. -/
theorem checkRange_bind_eq_error_iff
    {α : Type} {start length : Nat} {next : Unit → Except Fault α} {result : α} {fault : Fault}
    (h : next () = .ok result) :
    (checkRange start length >>= next) = .error fault ↔
      0 < length ∧ size < start + length ∧ fault = .memoryOutOfBounds (max start size) := by
  rw [checkRange_bind, h]
  split
  next hpast => simp [hpast, eq_comm]
  next hpast =>
    simp only [reduceCtorEq, false_iff]
    rintro ⟨hlength, hsize, -⟩
    exact hpast ⟨hlength, hsize⟩

end Memory

namespace Machine

/-- The causes for which an instruction fails on `m`, each with the fault. -/
inductive Obstacle (m : Machine) : Instruction Register → Fault → Prop
  | emptyStack :
      m.stack.depth = 0 → Obstacle m .ret (.stackUnderflow m.pc)
  | fullStack {addr : UInt16} :
      m.stack.depth = 16 → Obstacle m (.address .call addr) (.stackOverflow m.pc)
  | pastMemory {i : Instruction Register} {addr : Nat} :
      0 < i.span → Memory.size < m.index.toNat + i.span →
      IsLeast (Memory.pastEnd m.index.toNat i.span) addr →
      Obstacle m i (.memoryOutOfBounds addr)

/-- The causes for which a step on `m` fails, each with the fault. -/
inductive Stuck (m : Machine) : Fault → Prop
  | outside :
      m.mode = .running → Memory.size ≤ m.pc.toNat + 1 → Stuck m (.fetchOutOfBounds m.pc)
  | obstructed {i : Instruction Register} {fault : Fault} :
      m.next? = some i → m.Obstacle i fault → Stuck m fault

/-! ## Instructions that fail -/

theorem obstacle_iff_of_usesStack_eq_false
    {m : Machine} {i : Instruction Register} {fault : Fault} (h : i.usesStack = false) :
    m.Obstacle i fault ↔
      0 < i.span ∧ Memory.size < m.index.toNat + i.span ∧
        fault = .memoryOutOfBounds (max m.index.toNat Memory.size) := by
  constructor
  · intro hobstacle
    cases hobstacle with
    | emptyStack => cases h
    | fullStack => cases h
    | pastMemory hspan hsize hleast =>
        rw [(Memory.isLeast_pastEnd_iff hspan hsize).mp hleast]
        exact ⟨hspan, hsize, rfl⟩
  · rintro ⟨hspan, hsize, rfl⟩
    exact .pastMemory hspan hsize ((Memory.isLeast_pastEnd_iff hspan hsize).mpr rfl)

/-- There is no obstacle to an instruction that needs neither the stack nor memory, and it
succeeds. -/
theorem eq_error_iff_of_span_eq_zero
    {m : Machine} {i : Instruction Register} {result : Except Fault Effect} {e : Effect}
    {fault : Fault}
    (hstack : i.usesStack = false) (hspan : i.span = 0) (hresult : result = .ok e) :
    result = .error fault ↔ m.Obstacle i fault := by
  rw [obstacle_iff_of_usesStack_eq_false hstack, hspan, hresult]
  simp

theorem ret_eq_error_iff
    {m : Machine} {fault : Fault} :
    m.ret = .error fault ↔ m.Obstacle .ret fault := by
  constructor
  · intro h
    simp only [ret] at h
    split at h
    · cases h
    next hpop =>
      cases h
      exact .emptyStack (CallStack.pop?_eq_none_iff.mp hpop)
  · intro h
    cases h with
    | emptyStack hdepth => simp [ret, CallStack.pop?_eq_none_iff.mpr hdepth]
    | pastMemory hspan => cases hspan

theorem call_eq_error_iff
    {m : Machine} {addr : UInt16} {fault : Fault} :
    m.call addr = .error fault ↔ m.Obstacle (.address .call addr) fault := by
  constructor
  · intro h
    simp only [call] at h
    split at h
    · cases h
    next hpush =>
      cases h
      exact .fullStack (CallStack.push?_eq_none_iff.mp hpush)
  · intro h
    cases h with
    | fullStack hdepth => simp [call, CallStack.push?_eq_none_iff.mpr hdepth]
    | pastMemory hspan => cases hspan

theorem executeAddress_eq_error_iff
    {m : Machine} {op : AddressOp} {addr : UInt16} {fault : Fault} :
    m.executeAddress op addr = .error fault ↔ m.Obstacle (.address op addr) fault := by
  cases op with
  | call => exact call_eq_error_iff
  | _ => exact eq_error_iff_of_span_eq_zero rfl rfl rfl

theorem executeRegister_eq_error_iff
    {m : Machine} {op : RegisterOp} {x : Register} {fault : Fault} :
    m.executeRegister op x = .error fault ↔ m.Obstacle (.register op x) fault := by
  cases op with
  | decimal | store | fetch =>
      rw [obstacle_iff_of_usesStack_eq_false rfl]
      exact Memory.checkRange_bind_eq_error_iff rfl
  | _ => exact eq_error_iff_of_span_eq_zero rfl rfl rfl

/-- An instruction fails exactly when there is an obstacle, with the fault of the obstacle. -/
theorem execute_eq_error_iff
    {m : Machine} {i : Instruction Register} {fault : Fault} :
    m.execute i = .error fault ↔ m.Obstacle i fault := by
  cases i with
  | ret => exact ret_eq_error_iff
  | address op addr => exact executeAddress_eq_error_iff
  | register op x => exact executeRegister_eq_error_iff
  | draw x y n =>
      rw [obstacle_iff_of_usesStack_eq_false rfl]
      exact Memory.checkRange_bind_eq_error_iff rfl
  | _ => exact eq_error_iff_of_span_eq_zero rfl rfl rfl

/-! ## Steps and cycles that fail -/

/-- A step fails exactly when the machine is stuck, with the fault for which it is stuck. -/
theorem step_answer_eq_error_iff
    {m : Machine} {fault : Fault} :
    m.step.answer = .error fault ↔ m.Stuck fault := by
  constructor
  · intro h
    have hstep := m.stepped_step
    generalize m.step = stepped at h hstep
    cases hstep with
    | outside hmode hpc =>
        cases h
        exact .outside hmode hpc
    | failed hmode hfetch hword hexecute =>
        cases h
        have hnext := next?_eq_some_iff.mpr ⟨hmode, _, hfetch, hword⟩
        exact .obstructed hnext (execute_eq_error_iff.mp hexecute)
    | _ => cases h
  · intro h
    cases h with
    | outside hmode hpc => simp [step, hmode, fetch_eq_error hpc]
    | obstructed hnext hobstacle =>
        obtain ⟨word, -, hstep⟩ := step_of_next? hnext
        simp [hstep, executeWord, execute_eq_error_iff.mpr hobstacle]

theorem step_events_of_stuck
    {m : Machine} {fault : Fault} (h : m.Stuck fault) :
    m.step.events.filterMap Event.tone? = [] := by
  have hanswer := step_answer_eq_error_iff.mpr h
  have hstep := m.stepped_step
  generalize m.step = stepped at hanswer hstep ⊢
  cases hstep with
  | outside => rfl
  | failed => rfl
  | _ => cases hanswer

/-- A request that runs a stuck machine has no effect but notes. -/
theorem perform_of_stuck
    {m : Machine} {fault : Fault} (h : m.Stuck fault)
    {action : Action} (hruns : action.runs = true) :
    (m.perform action).answer = action.report (.error fault) ∧
      (m.perform action).machine = m ∧
      (m.perform action).events.filterMap Event.tone? = [] := by
  have hanswer := step_answer_eq_error_iff.mpr h
  have hevents := step_events_of_stuck h
  refine ⟨by rw [perform_answer_of_runs hruns, hanswer], ?_⟩
  cases action with
  | cycle => simp [perform, cycle_of_error hanswer, hevents, Event.tone?]
  | step => exact ⟨step_machine_of_error hanswer, hevents⟩
  | _ => cases hruns

theorem performAll_of_stuck
    {m : Machine} {fault : Fault} (h : m.Stuck fault)
    {actions : List Action} (hruns : ∀ action ∈ actions, action.runs = true) :
    (m.performAll actions).answer = actions.map (·.report (.error fault)) ∧
      (m.performAll actions).machine = m ∧
      (m.performAll actions).events.filterMap Event.tone? = [] := by
  induction actions with
  | nil => exact ⟨rfl, rfl, rfl⟩
  | cons action actions ih =>
      rw [List.forall_mem_cons] at hruns
      obtain ⟨hanswer, hmachine, hevents⟩ := perform_of_stuck h hruns.1
      obtain ⟨hanswers, hmachines, heventss⟩ := ih hruns.2
      simp [performAll_cons, hanswer, hmachine, hevents, hanswers, hmachines, heventss]

theorem Stuck.eq_one_of_four
    {m : Machine} {fault : Fault} (h : m.Stuck fault) :
    fault = .fetchOutOfBounds m.pc ∨ fault = .stackUnderflow m.pc ∨
      fault = .stackOverflow m.pc ∨ ∃ addr, fault = .memoryOutOfBounds addr := by
  cases h with
  | outside => simp
  | obstructed _ hobstacle => cases hobstacle <;> simp

/-- A cycle or a step fails exactly when the machine is stuck, and always with the fault for which
it is stuck, which is one of four.  The machine is then as before and the speaker hears nothing,
and as long as the host does nothing else it goes on like this. -/
theorem run_fails_iff_stuck
    (m : Machine) {action : Action} (hruns : action.runs = true) (fault : Fault) :
    ((m.perform action).answer = action.report (.error fault) ↔ m.Stuck fault) ∧
      (m.Stuck fault →
        (fault = .fetchOutOfBounds m.pc ∨ fault = .stackUnderflow m.pc ∨
          fault = .stackOverflow m.pc ∨ ∃ addr, fault = .memoryOutOfBounds addr) ∧
        (m.perform action).machine = m ∧
        (m.perform action).events.filterMap Event.tone? = [] ∧
        ∀ later : List Action, (∀ a ∈ later, a.runs = true) →
          let after := (m.perform action).machine.performAll later
          after.answer = later.map (·.report (.error fault)) ∧
            after.machine = m ∧
            after.events.filterMap Event.tone? = []) := by
  constructor
  · rw [perform_answer_of_runs hruns, Action.report_eq_report_error_iff]
    exact step_answer_eq_error_iff
  · intro h
    obtain ⟨-, hmachine, hevents⟩ := perform_of_stuck h hruns
    refine ⟨h.eq_one_of_four, hmachine, hevents, ?_⟩
    intro later hlater after
    have hafter : after = m.performAll later := congrArg (·.performAll later) hmachine
    rw [hafter]
    exact performAll_of_stuck h hlater

/-- A program that begins with a return is stuck at once. -/
theorem run_fails_at_first_return :
    let m := booted [0x00, 0xEE]
    m.Stuck (.stackUnderflow 0x200) ∧
      (m.perform .cycle).answer = .cycled (.error (.stackUnderflow 0x200)) ∧
      (m.perform .cycle).machine = m ∧
      ((m.perform .cycle).machine.performAll [.step, .cycle]).answer =
        [.failed (.stackUnderflow 0x200), .cycled (.error (.stackUnderflow 0x200))] := by
  intro m
  have hnext : m.next? = some .ret := by decide +kernel
  have hstuck : m.Stuck (.stackUnderflow 0x200) := .obstructed hnext (.emptyStack rfl)
  have hcycle : Action.cycle.runs = true := rfl
  obtain ⟨hanswer, hafter⟩ := m.run_fails_iff_stuck hcycle (.stackUnderflow 0x200)
  obtain ⟨-, hmachine, -, hlater⟩ := hafter hstuck
  exact ⟨hstuck, hanswer.mpr hstuck, hmachine, (hlater [.step, .cycle] (by decide)).1⟩

end Machine

end Chip8
