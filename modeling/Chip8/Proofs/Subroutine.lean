import Chip8.Proofs.CallStack
import Chip8.Proofs.History
import Mathlib.Data.List.Infix

/-!
# Subroutines

A call and the return that ends it belong together, however much lies between them.  From inside a
call a request either stays inside it or carries out the return that ends it: this is shown for one
instruction, one step and one request after the other.  So a history that never comes back to the
depth of the call finds, when it does, the stack and the address that the call left behind.
-/

namespace Chip8

namespace Machine

/-- The machine is where a call that was made on the stack `base` returns to. -/
def Returned (base : CallStack) (addr : UInt16) (m : Machine) : Prop :=
  m.stack = base ∧ m.pc = addr

variable {m : Machine} {base : CallStack} {addr : UInt16}

/-! ## One request -/

/-- Only a call and a return touch the stack. -/
theorem execute_stack_cases
    {i : Instruction Register} {e : Effect} (h : m.execute i = .ok e) :
    e.machine.stack = m.stack ∨
      m.stack.push? (m.pc + 2) = some e.machine.stack ∨
      (i = .ret ∧ m.stack.pop? = some (e.machine.pc, e.machine.stack)) := by
  by_cases hstack : i.usesStack = true
  · cases i with
    | ret =>
        simp only [execute, ret] at h
        split at h
        next popped rest hpop =>
          cases h
          exact .inr (.inr ⟨rfl, hpop⟩)
        next => cases h
    | address op target =>
        cases op with
        | call =>
            simp only [execute, executeAddress, call] at h
            split at h
            next pushed hpush =>
              cases h
              exact .inr (.inl hpush)
            next => cases h
        | _ => cases hstack
    | _ => cases hstack
  · rw [Bool.not_eq_true] at hstack
    exact .inl ((execute_frame h).stack hstack)

theorem execute_inside
    (hbase : base.Tidy) (hinside : base.Inside addr m.stack)
    {i : Instruction Register} {e : Effect} (h : m.execute i = .ok e) :
    base.Inside addr e.machine.stack ∨ (i = .ret ∧ e.machine.Returned base addr) := by
  rcases execute_stack_cases h with hkept | hpush | ⟨hret, hpop⟩
  · rw [hkept]
    exact .inl hinside
  · exact .inl (hinside.push hpush)
  · rcases hinside.pop hbase hpop with hinside' | ⟨hpc, hstack⟩
    · exact .inl hinside'
    · exact .inr ⟨hret, hstack, hpc⟩

theorem step_inside
    (hbase : base.Tidy) (hinside : base.Inside addr m.stack) :
    base.Inside addr m.step.machine.stack ∨
      (m.next? = some .ret ∧ m.step.machine.Returned base addr) := by
  have hstep := m.stepped_step
  generalize m.step = stepped at hstep ⊢
  cases hstep with
  | executed hmode hfetch hword hexecute =>
      rcases execute_inside hbase hinside hexecute with hinside' | ⟨rfl, hreturned⟩
      · exact .inl hinside'
      · exact .inr ⟨next?_eq_some_iff.mpr ⟨hmode, _, hfetch, hword⟩, hreturned⟩
  | _ => exact .inl hinside

theorem perform_inside_of_runs
    (hbase : base.Tidy) (hinside : base.Inside addr m.stack)
    {action : Action} (hruns : action.runs = true) :
    base.Inside addr (m.perform action).machine.stack ∨
      (m.next? = some .ret ∧ (m.perform action).machine.Returned base addr) := by
  have hstack := m.perform_eq_step_of_runs (f := stack) (fun _ => rfl) hruns
  have hpc := m.perform_eq_step_of_runs (f := pc) (fun _ => rfl) hruns
  rw [Returned, hstack, hpc]
  exact step_inside hbase hinside

/-- From inside a call every request but a reset stays inside it or ends it. -/
theorem perform_inside
    (hbase : base.Tidy) (hinside : base.Inside addr m.stack)
    {action : Action} (hreset : action ≠ .reset) :
    base.Inside addr (m.perform action).machine.stack ∨
      (m.perform action).machine.Returned base addr := by
  cases action with
  | reset => exact absurd rfl hreset
  | load program =>
      left
      apply attempt_induction (P := fun m => base.Inside addr m.stack) hinside
      intro e hload
      rw [load_eq_ok hload]
      exact hinside
  | cycle => exact (perform_inside_of_runs hbase hinside rfl).imp_right And.right
  | step => exact (perform_inside_of_runs hbase hinside rfl).imp_right And.right
  | execute i =>
      apply attempt_induction (P := fun m => base.Inside addr m.stack ∨ m.Returned base addr)
      · exact .inl hinside
      · intro e hexecute
        exact (execute_inside hbase hinside hexecute).imp_right And.right
  | cancelWait =>
      rcases m.cancelWait_cases with ⟨-, hcancel⟩ | ⟨x, -, hcancel⟩ <;>
        simp only [perform, hcancel]
      · exact .inl hinside
      · exact .inl hinside
  | _ => exact .inl hinside

/-! ## Histories -/

theorem performAll_inside
    (hbase : base.Tidy) (hinside : base.Inside addr m.stack)
    {actions : List Action} (hreset : ∀ action ∈ actions, action ≠ .reset)
    (hdeep : ∀ first, first <+: actions → base.depth < (m.performAll first).machine.stack.depth) :
    base.Inside addr (m.performAll actions).machine.stack := by
  induction actions generalizing m with
  | nil => exact hinside
  | cons action actions ih =>
      rw [List.forall_mem_cons] at hreset
      have hdeep' : ∀ first, first <+: actions →
          base.depth < ((m.perform action).machine.performAll first).machine.stack.depth := by
        intro first hfirst
        exact hdeep (action :: first) (List.cons_prefix_cons.mpr ⟨rfl, hfirst⟩)
      rcases perform_inside hbase hinside hreset.1 with hinside' | ⟨hstack, -⟩
      · exact ih hinside' hreset.2 hdeep'
      · -- The call cannot have ended yet, since the stack is still deeper than before it.
        have hdepth := hdeep' [] List.nil_prefix
        rw [performAll, hstack] at hdepth
        exact absurd hdepth (Fin.lt_irrefl _)

/-- A step at a call, if there is a place on the stack, goes inside it. -/
theorem step_of_call
    (hbase : m.stack.Tidy) (hdepth : m.stack.depth.val ≤ 15)
    {target : UInt16} (hnext : m.next? = some (.address .call target)) :
    m.step.answer = .ok (some (.address .call target)) ∧
      m.step.machine.pc = target ∧
      m.stack.Inside (m.pc + 2) m.step.machine.stack := by
  obtain ⟨word, -, hstep⟩ := step_of_next? hnext
  cases hpush : m.stack.push? (m.pc + 2) with
  | none =>
      have hfull := CallStack.push?_eq_none_iff.mp hpush
      rw [hfull] at hdepth
      exact absurd hdepth (by decide)
  | some stack =>
      have hcall : m.execute (.address .call target) =
          .ok (silently { m with stack := stack, pc := target }) := by
        simp only [execute, executeAddress, call, hpush]
      rw [hstep, executeWord, hcall]
      exact ⟨rfl, rfl, CallStack.inside_of_push? hbase hpush⟩

/-- Subroutines are well bracketed.  A cycle or a step at a call carries it out if there is a place
on the stack.  Whatever then happens but a reset, if the stack stays deeper than before the call
until a cycle or a step brings it back, then this carries out a return, and it goes on behind the
call, with every place of the stack as it was before. -/
theorem return_restores_stack_of_call
    {target : UInt16} (hnext : m.next? = some (.address .call target))
    (hdepth : m.stack.depth.val ≤ 15)
    (hfree : ∀ (place : Nat) (h : place < 16),
      m.stack.depth.val ≤ place → m.stack.cells[place] = 0)
    (opening : Action) (hopening : opening.runs = true)
    (between : List Action) (hreset : ∀ action ∈ between, action ≠ .reset)
    (closing : Action) (hclosing : closing.runs = true) :
    let called := m.perform opening
    let inside := (called.machine.performAll between).machine
    let returned := (inside.perform closing).machine
    called.answer = opening.report (.ok (some (.address .call target))) ∧
      called.machine.pc = target ∧
      ((∀ first, first <+: between →
          m.stack.depth < (called.machine.performAll first).machine.stack.depth) →
        returned.stack.depth ≤ m.stack.depth →
        inside.next? = some .ret ∧
          returned.pc.toNat = m.pc.toNat + 2 ∧
          returned.stack = m.stack) := by
  intro called inside returned
  have hbase : m.stack.Tidy := hfree
  obtain ⟨hanswer, htarget, hcalled⟩ := step_of_call hbase hdepth hnext
  have hstack := m.perform_eq_step_of_runs (f := stack) (fun _ => rfl) hopening
  have hpc := m.perform_eq_step_of_runs (f := pc) (fun _ => rfl) hopening
  rw [← hstack] at hcalled
  refine ⟨?_, hpc.trans htarget, ?_⟩
  · rw [perform_answer_of_runs hopening, hanswer]
  · intro hdeep hback
    have hinside : m.stack.Inside (m.pc + 2) inside.stack :=
      performAll_inside hbase hcalled hreset hdeep
    rcases perform_inside_of_runs hbase hinside hclosing with hinside' | ⟨hret, hstack', hpc'⟩
    · exact absurd hinside'.depth_lt (Fin.not_lt.mpr hback)
    · refine ⟨hret, ?_, hstack'⟩
      obtain ⟨-, word, hfetch, -⟩ := next?_eq_some_iff.mp hnext
      have hroom := pc_lt_of_fetch hfetch
      rw [Memory.size] at hroom
      rw [hpc', UInt16.toNat_add]
      change (m.pc.toNat + 2) % 0x10000 = m.pc.toNat + 2
      omega

/-- A subroutine that calls another one, in which a key press is waited for. -/
theorem return_from_subroutine_with_inner_call :
    let m := booted
      [0x22, 0x06, 0x12, 0x02, 0x00, 0x00, 0x60, 0x07, 0x22, 0x0C, 0x00, 0xEE, 0xF1, 0x0A,
        0x00, 0xEE]
    let between : List Action :=
      [.cycle, .cycle, .cycle, .press 3, .tick, .cycle, .release 3, .cycle]
    let inside := ((m.perform .cycle).machine.performAll between).machine
    let returned := (inside.perform .cycle).machine
    m.next? = some (.address .call 0x206) ∧
      inside.next? = some .ret ∧
      returned.pc.toNat = 0x202 ∧
      returned.stack = m.stack := by
  intro m between inside returned
  have hfree : ∀ (place : Nat) (h : place < 16),
      m.stack.depth.val ≤ place → m.stack.cells[place] = 0 := by decide
  obtain ⟨hnext, hdeep, hback⟩ :
      m.next? = some (.address .call 0x206) ∧
        (∀ first ∈ between.inits,
          m.stack.depth < ((m.perform .cycle).machine.performAll first).machine.stack.depth) ∧
        returned.stack.depth ≤ m.stack.depth := by
    decide +kernel
  obtain ⟨-, -, hreturn⟩ :=
    return_restores_stack_of_call hnext (by decide) hfree .cycle rfl between (by decide) .cycle rfl
  obtain ⟨hret, hpc, hstack⟩ :=
    hreturn (fun first hfirst => hdeep first ((List.mem_inits _ _).mpr hfirst)) hback
  exact ⟨hnext, hret, hpc, hstack⟩

end Machine

end Chip8
