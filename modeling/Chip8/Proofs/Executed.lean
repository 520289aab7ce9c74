import Chip8.Proofs.History

/-!
# What a history carries out

Instructions are carried out by cycles and steps, which take them from the program, and at a
host's own request.  `Machine.executed?` tells which instruction a request carries out, if any, and
`Machine.executed` lists those of a whole history in their order.  An instruction that fails is not
among them, nor is a word that is passed over or a cycle spent waiting for a key.
-/

namespace Chip8

/-- The requests that put something new into memory or in place of the random stream, with no
instruction to do it. -/
def Action.replaces : Action → Bool
  | reset => true
  | load _ => true
  | seed _ => true
  | _ => false

namespace Machine

/-- The instruction that a request carries out, if it carries one out. -/
def executed? (m : Machine) : Action → Option (Instruction Register)
  | .cycle => m.step.answer.toOption.join
  | .step => m.step.answer.toOption.join
  | .execute i => (m.execute i).toOption.map fun _ => i
  | _ => none

/-- The instructions that requests carry out, one after the other. -/
def executed : Machine → List Action → List (Instruction Register)
  | _, [] => []
  | m, action :: actions =>
    (m.executed? action).toList ++ (m.perform action).machine.executed actions

variable {m : Machine} {action : Action} {i : Instruction Register}

theorem executed?_of_runs
    (hruns : action.runs = true) :
    m.executed? action = m.step.answer.toOption.join := by
  cases action with
  | cycle => rfl
  | step => rfl
  | _ => cases hruns

/-- A step that answers with an instruction leaves what the instruction leaves. -/
theorem execute_of_step_answer
    (h : m.step.answer.toOption.join = some i) :
    ∃ e, m.execute i = .ok e ∧ m.step.machine = e.machine := by
  have hstep := m.stepped_step
  generalize m.step = stepped at h hstep ⊢
  cases hstep with
  | executed _ _ _ hexecute =>
      cases h
      exact ⟨_, hexecute, rfl⟩
  | _ => cases h

/-- What no tick touches is after a request as the instruction that it carries out leaves it. -/
theorem perform_of_executed?
    {α : Type} {f : Machine → α} (htick : ∀ m, f m.tick.machine = f m)
    (h : m.executed? action = some i) :
    ∃ e, m.execute i = .ok e ∧ f (m.perform action).machine = f e.machine := by
  by_cases hruns : action.runs = true
  · rw [executed?_of_runs hruns] at h
    obtain ⟨e, hexecute, hmachine⟩ := execute_of_step_answer h
    refine ⟨e, hexecute, ?_⟩
    rw [m.perform_eq_step_of_runs htick hruns, hmachine]
  · cases action with
    | execute j =>
        cases hexecute : m.execute j with
        | ok e =>
            simp only [executed?, hexecute] at h
            cases h
            exact ⟨e, hexecute, by simp only [perform, hexecute, attempt, carryOut]⟩
        | error fault =>
            simp only [executed?, hexecute] at h
            cases h
    | cycle | step => exact absurd rfl hruns
    | _ => cases h

/-- Memory, the stack, the index register and the random stream, and what depends on nothing else,
are not changed by a request that carries nothing out, unless it replaces one of them. -/
theorem perform_of_executed?_eq_none
    {α : Type} {f : Machine → α}
    (hf : ∀ (m : Machine) pc v screen delay sound keypad mode unrecognized,
      f ⟨m.memory, m.stack, m.index, pc, v, screen, delay, sound, keypad, mode, unrecognized,
        m.random⟩ = f m)
    (hreplaces : action.replaces = false) (h : m.executed? action = none) :
    f (m.perform action).machine = f m := by
  by_cases hruns : action.runs = true
  · rw [m.perform_eq_step_of_runs (fun m => hf m ..) hruns]
    rw [executed?_of_runs hruns] at h
    have hstep := m.stepped_step
    generalize m.step = stepped at h hstep ⊢
    cases hstep with
    | executed => cases h
    | waiting | outside | failed => rfl
    | _ => exact hf m ..
  · cases action with
    | execute i =>
        apply attempt_induction (P := fun n => f n = f m) rfl
        intro e hexecute
        rw [executed?, hexecute] at h
        cases h
    | cancelWait =>
        rcases m.cancelWait_cases with ⟨-, hcancel⟩ | ⟨x, -, hcancel⟩ <;>
          simp only [perform, hcancel]
        exact hf m ..
    | cycle | step => exact absurd rfl hruns
    | reset | load | seed => cases hreplaces
    | _ => exact hf m ..

end Machine

end Chip8
