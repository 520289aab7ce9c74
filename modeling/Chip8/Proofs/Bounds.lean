import Chip8.Proofs.CallStack
import Chip8.Proofs.Checked
import Chip8.Proofs.History

/-!
# Bounds

The program counter stays close to memory because each of its sources does: a fetch needs two bytes
in memory, the addresses of instructions have three digits, and return addresses were program
counters of fetched instructions.  `Machine.Bounded` says all of this at once, since the
bounds rest on one another.  Every request keeps it, unless it brings an instruction of its own, and
no check of a checked step or cycle fails where it holds.
-/

namespace Chip8

/-- The places in use hold return addresses of fetched instructions, and the others zero. -/
structure CallStack.Bounded (s : CallStack) : Prop where
  free : ∀ (place : Nat) (h : place < 16), s.depth.val ≤ place → s.cells[place] = 0
  used : ∀ (place : Nat) (h : place < 16), place < s.depth.val →
    2 ≤ s.cells[place].toNat ∧ s.cells[place].toNat ≤ 0x1000

/-- The bounds within which a machine stays that follows a program. -/
structure Machine.Bounded (m : Machine) : Prop where
  stack : m.stack.Bounded
  pc : m.pc.toNat ≤ 0x10FE
  awaiting : ∀ x, m.mode = .awaitingKey x → m.pc.toNat ≤ 0xFFE

theorem Instruction.usesStack_eq_false
    (i : Instruction Register) (h : i.steers = false) :
    i.usesStack = false := by
  cases i with
  | address op => cases op <;> first | rfl | cases h
  | ret => cases h
  | _ => rfl

theorem Word.toNat_add_le (a b : UInt16) : (a + b).toNat ≤ a.toNat + b.toNat := by
  rw [UInt16.toNat_add]
  exact Nat.mod_le _ _

namespace CallStack

theorem bounded_empty : empty.Bounded where
  free := by
    intro place h _
    simp [empty]
  used := by
    intro place h hlt
    exact absurd hlt (Nat.not_lt_zero place)

theorem Bounded.push
    {s t : CallStack} {addr : UInt16} (hs : s.Bounded)
    (haddr : 2 ≤ addr.toNat ∧ addr.toNat ≤ 0x1000) (hpush : s.push? addr = some t) :
    t.Bounded where
  free := Tidy.push hs.free hpush
  used := by
    unfold push? at hpush
    split at hpush
    next hdepth =>
      cases hpush
      intro place h hlt
      by_cases heq : s.depth.val = place
      · simp only [heq, Vector.getElem_set_self]
        exact haddr
      · rw [Vector.getElem_set_ne _ _ heq]
        have hlt' : place < s.depth.val := by
          change place < s.depth.val + 1 at hlt
          omega
        exact hs.used place h hlt'
    next => cases hpush

theorem Bounded.pop
    {s t : CallStack} {addr : UInt16} (hs : s.Bounded) (hpop : s.pop? = some (addr, t)) :
    t.Bounded ∧ addr.toNat ≤ 0x1000 := by
  have hfree : t.Tidy := Tidy.pop hs.free hpop
  obtain ⟨cells, ⟨depth, hdepth⟩⟩ := s
  cases depth with
  | zero => cases hpop
  | succ top =>
      cases hpop
      refine ⟨⟨hfree, ?_⟩, (hs.used top (by omega) (Nat.lt_succ_self top)).2⟩
      intro place h hlt
      have hne : top ≠ place := Nat.ne_of_gt hlt
      rw [Vector.getElem_set_ne _ _ hne]
      exact hs.used place h (Nat.lt_succ_of_lt hlt)

end CallStack

namespace Machine

variable {m : Machine}

/-! ## Instructions -/

/-- A machine that runs is within the bounds if its stack and its program counter are. -/
theorem bounded_of_running
    (hmode : m.mode = .running) (hstack : m.stack.Bounded) (hpc : m.pc.toNat ≤ 0x10FE) :
    m.Bounded where
  stack := hstack
  pc := hpc
  awaiting := by
    intro x hawaiting
    rw [hmode] at hawaiting
    cases hawaiting

theorem bounded_at_start
    (hmode : m.mode = .running) (hstack : m.stack = CallStack.empty) (hpc : m.pc = 0x200) :
    m.Bounded := by
  apply bounded_of_running hmode
  · rw [hstack]
    exact CallStack.bounded_empty
  · rw [hpc]
    decide

theorem toNat_pc_advance_le (m : Machine) : m.advance.pc.toNat ≤ m.pc.toNat + 2 :=
  Word.toNat_add_le m.pc 2

theorem toNat_pc_le_of_fetch
    {word : UInt16} (h : m.fetch = .ok word) :
    m.pc.toNat ≤ 0xFFE := by
  have hlt := pc_lt_of_fetch h
  rw [Memory.size] at hlt
  omega

/-- The program counter goes on by at most four bytes from where a word was fetched. -/
theorem toNat_le_of_goes_on
    {pc : UInt16} (hfetched : m.pc.toNat ≤ 0xFFE) (h : pc = m.pc + 2 ∨ pc = m.pc + 4) :
    pc.toNat ≤ 0x1002 := by
  rcases h with rfl | rfl
  · have hle := m.toNat_pc_advance_le
    rw [pc_advance] at hle
    omega
  · have hle : (m.pc + 4).toNat ≤ m.pc.toNat + 4 := Word.toNat_add_le m.pc 4
    omega

theorem Bounded.ret
    (h : m.Bounded) (hmode : m.mode = .running) {e : Effect} (hret : m.ret = .ok e) :
    e.machine.Bounded := by
  unfold Machine.ret at hret
  split at hret
  next addr stack hpop =>
    cases hret
    obtain ⟨hstack, haddr⟩ := h.stack.pop hpop
    exact bounded_of_running hmode hstack (Nat.le_trans haddr (by decide))
  next => cases hret

theorem Bounded.call
    (h : m.Bounded) (hmode : m.mode = .running) (hfetched : m.pc.toNat ≤ 0xFFE)
    {addr : UInt16} (haddr : addr.toNat < 4096) {e : Effect} (hcall : m.call addr = .ok e) :
    e.machine.Bounded := by
  unfold Machine.call at hcall
  split at hcall
  next stack hpush =>
    cases hcall
    have htarget : (m.pc + 2).toNat = m.pc.toNat + 2 := by
      rw [UInt16.toNat_add]
      change (m.pc.toNat + 2) % 0x10000 = m.pc.toNat + 2
      omega
    have hstack := h.stack.push (by omega) hpush
    have hpc : addr.toNat ≤ 0x10FE := by omega
    exact bounded_of_running hmode hstack hpc
  next => cases hcall

theorem Bounded.executeAddress
    (h : m.Bounded) (hmode : m.mode = .running) (hfetched : m.pc.toNat ≤ 0xFFE)
    {op : AddressOp} {addr : UInt16} (haddr : addr.toNat < 4096)
    (hsteers : (Instruction.address (R := Register) op addr).steers = true)
    {e : Effect} (hexecute : m.executeAddress op addr = .ok e) :
    e.machine.Bounded := by
  cases op with
  | jump =>
      cases hexecute
      have hpc : addr.toNat ≤ 0x10FE := by omega
      exact bounded_of_running hmode h.stack hpc
  | call => exact h.call hmode hfetched haddr hexecute
  | jumpOffset =>
      cases hexecute
      have hpc : (addr + (m.register Register.offset).toUInt16).toNat ≤ 0x10FE := by
        have hle := Word.toNat_add_le addr (m.register Register.offset).toUInt16
        have hoffset := (m.register Register.offset).toNat_lt
        rw [UInt8.toNat_toUInt16] at hle
        omega
      exact bounded_of_running hmode h.stack hpc
  | _ => cases hsteers

/-- A fetched instruction keeps the bounds: either it goes on from where it was fetched, or it
names the next address itself, or it waits. -/
theorem Bounded.execute
    (h : m.Bounded) (hmode : m.mode = .running) (hfetched : m.pc.toNat ≤ 0xFFE)
    {i : Instruction Register} (haddr : ∀ op addr, i = .address op addr → addr.toNat < 4096)
    {e : Effect} (hexecute : m.execute i = .ok e) :
    e.machine.Bounded := by
  have hframe := execute_frame hexecute
  by_cases hsteers : i.steers = true
  · -- Each of these instructions has a bound of its own on where the program counter ends up.
    cases i with
    | ret => exact h.ret hmode hexecute
    | address op addr =>
        exact h.executeAddress hmode hfetched (haddr op addr rfl) hsteers hexecute
    | register op x =>
        cases op with
        | waitKey =>
            cases hexecute
            exact ⟨h.stack, h.pc, fun _ _ => hfetched⟩
        | _ => cases hsteers
    | _ => cases hsteers
  · -- What is left goes on from where it was fetched, and the frame keeps the stack and the mode.
    rw [Bool.not_eq_true] at hsteers
    have hne : ∀ x, i ≠ .register .waitKey x := by
      rintro x rfl
      cases hsteers
    have hpc := toNat_le_of_goes_on hfetched (hframe.pc hsteers)
    apply bounded_of_running
    · rw [hframe.mode hne, hmode]
    · rw [hframe.stack (i.usesStack_eq_false hsteers)]
      exact h.stack
    · omega

/-! ## Requests -/

theorem Bounded.step
    (h : m.Bounded) :
    m.step.machine.Bounded := by
  have hstep := m.stepped_step
  generalize m.step = stepped at hstep ⊢
  cases hstep with
  | resolved hmode =>
      have hpc := h.awaiting _ hmode
      have hle := m.toNat_pc_advance_le
      have hpc' : m.advance.pc.toNat ≤ 0x10FE := by omega
      exact bounded_of_running rfl h.stack hpc'
  | waiting => exact h
  | outside => exact h
  | skipped hmode hfetch =>
      have hpc := toNat_le_of_goes_on (toNat_pc_le_of_fetch hfetch) (.inl rfl)
      have hpc' : m.advance.pc.toNat ≤ 0x10FE := by
        rw [pc_advance]
        omega
      exact bounded_of_running hmode h.stack hpc'
  | executed hmode hfetch hword hexecute =>
      apply h.execute hmode (toNat_pc_le_of_fetch hfetch) ?_ hexecute
      rintro op addr rfl
      exact Instruction.address_lt_of_ofWord? hword
  | failed => exact h

theorem Bounded.cancelWait
    (h : m.Bounded) :
    m.cancelWait.machine.Bounded := by
  rcases m.cancelWait_cases with ⟨-, hcancel⟩ | ⟨x, hmode, hcancel⟩ <;> rw [hcancel]
  · exact h
  · have hpc := h.awaiting x hmode
    have hle := m.toNat_pc_advance_le
    have hpc' : m.advance.pc.toNat ≤ 0x10FE := by omega
    exact bounded_of_running rfl h.stack hpc'

theorem Bounded.perform
    (h : m.Bounded) {action : Action} (hfollows : action.followsProgram = true) :
    (m.perform action).machine.Bounded := by
  cases action with
  | reset => exact bounded_at_start rfl rfl rfl
  | load program =>
      apply attempt_induction h
      intro e hload
      rw [load_eq_ok hload]
      exact ⟨h.stack, h.pc, h.awaiting⟩
  | cycle =>
      apply cycle_induction h h.step
      intro m hm
      exact ⟨hm.stack, hm.pc, hm.awaiting⟩
  | step => exact h.step
  | execute => cases hfollows
  | cancelWait => exact h.cancelWait
  | _ => exact ⟨h.stack, h.pc, h.awaiting⟩

theorem bounded_of_reachable
    {e : Emulator} (h : e.Reachable Action.followsProgram) :
    e.machine.Bounded := by
  apply h.machine_induction
  · intro random
    exact bounded_at_start rfl rfl rfl
  · intro m action hfollows hm
    exact hm.perform hfollows

/-- However a host runs a program, loads others and moves keys, the machine stays within its bounds.
So no check of a checked step or cycle fails in it: every place that is read or written exists, and
neither a jump with an offset nor an advance, a skip or a return address leaves the words. -/
theorem reachable_machine_is_bounded
    {e : Emulator} (h : e.Reachable Action.followsProgram) :
    e.machine.stack.depth.val ≤ 16 ∧
      (∀ (place : Nat) (hplace : place < 16),
        (e.machine.stack.depth.val ≤ place → e.machine.stack.cells[place] = 0) ∧
          (place < e.machine.stack.depth.val →
            2 ≤ e.machine.stack.cells[place].toNat ∧
              e.machine.stack.cells[place].toNat ≤ 0x1000)) ∧
      e.machine.pc.toNat ≤ 0x10FE ∧
      (∀ x, e.machine.mode = .awaitingKey x → x.val ≤ 15 ∧ e.machine.pc.toNat ≤ 0xFFE) ∧
      e.machine.stepChecked? = some e.machine.step ∧
      e.machine.cycleChecked? = some e.machine.cycle := by
  have hbounded := bounded_of_reachable h
  have hpc := hbounded.pc
  have hroom : e.machine.pc.toNat + 4 < 0x10000 := by omega
  refine ⟨Nat.le_of_lt_succ e.machine.stack.depth.isLt, ?_, hpc, ?_, ?_, ?_⟩
  · intro place hplace
    exact ⟨hbounded.stack.free place hplace, hbounded.stack.used place hplace⟩
  · intro x hmode
    exact ⟨Nat.le_of_lt_succ x.isLt, hbounded.awaiting x hmode⟩
  · exact stepChecked?_eq_some hroom
  · exact cycleChecked?_eq_some hroom

/-- Two calls, and a wait for a key in the inner subroutine. -/
theorem waiting_subroutine_is_bounded :
    let e₀ := (Emulator.powerOn (Random.Stream.ofSeed 0) none).2
    let e₁ := (e₀.perform (.load [0x22, 0x02, 0x22, 0x04, 0xF7, 0x0A])).2
    let e := (((e₁.perform .cycle).2.perform .cycle).2.perform .cycle).2
    e.machine.stack.depth = 2 ∧ e.machine.mode = .awaitingKey 7 ∧
      e.machine.pc.toNat ≤ 0xFFE ∧
      (2 ≤ e.machine.stack.cells[1].toNat ∧ e.machine.stack.cells[1].toNat ≤ 0x1000) ∧
      e.machine.stack.cells[2] = 0 ∧
      e.machine.stepChecked? = some e.machine.step := by
  intro e₀ e₁ e
  have hloaded : e₁.Reachable Action.followsProgram := .perform (.powerOn _ _) rfl
  have hreachable : e.Reachable Action.followsProgram :=
    .perform (.perform (.perform hloaded rfl) rfl) rfl
  have hdepth : e.machine.stack.depth = 2 := by decide +kernel
  have hmode : e.machine.mode = .awaitingKey 7 := by decide +kernel
  obtain ⟨-, hcells, -, hawaiting, hstep, -⟩ := reachable_machine_is_bounded hreachable
  have hused : 1 < e.machine.stack.depth.val := by rw [hdepth]; decide
  have hfree : e.machine.stack.depth.val ≤ 2 := by rw [hdepth]; decide
  exact ⟨hdepth, hmode, (hawaiting 7 hmode).2, (hcells 1 (by decide)).2 hused,
    (hcells 2 (by decide)).1 hfree, hstep⟩

end Machine

end Chip8
