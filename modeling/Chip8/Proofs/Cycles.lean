import Chip8.Event
import Chip8.Machine.Cycle
import Mathlib.Logic.Function.Iterate

/-!
# Cycles one behind the other

A machine is cycled again and again, up to a limit.  `Machine.Ends` says where this ends: at the
first cycle that fails, or at the limit if there is none.  There is one such place, and it does not
matter whether the cycles are counted from the start or from a cycle in between.
-/

namespace Chip8

namespace Machine

/-- The machine after `n` cycles. -/
def after (m : Machine) (n : Nat) : Machine :=
  (fun m => m.cycle.machine)^[n] m

def CyclesSucceed (m : Machine) (n : Nat) : Prop :=
  ∀ j < n, ∃ i, (m.after j).cycle.answer = .ok i

instance (m : Machine) (n : Nat) : Decidable (m.CyclesSucceed n) :=
  decidable_of_iff (∀ j < n, (m.after j).cycle.answer.isOk = true) <| by
    refine forall₂_congr fun j _ => ?_
    cases (m.after j).cycle.answer <;> simp [Except.isOk, Except.toBool]

/-- Of up to `limit` cycles `n` succeed: all of them, or those before the first that fails. -/
inductive Ends (m : Machine) (limit : Nat) : Nat → Option Fault → Prop
  | finished : m.CyclesSucceed limit → Ends m limit limit none
  | halted {n : Nat} {fault : Fault} :
      n < limit → m.CyclesSucceed n → (m.after n).cycle.answer = .error fault →
      Ends m limit n (some fault)

/-- The answers of the first `n` cycles. -/
def cycleAnswers (m : Machine) (n : Nat) : List StepResult :=
  (List.range n).map fun j => (m.after j).cycle.answer

/-- The records of the first `n` cycles. -/
def cycleRecords (m : Machine) (n : Nat) : List Record :=
  (List.range n).flatMap fun j =>
    ((m.after j).cycle.events.filterMap Event.note?).map Note.record

variable {m : Machine}

theorem after_succ (m : Machine) (n : Nat) : m.after (n + 1) = (m.after n).cycle.machine :=
  Function.iterate_succ_apply' ..

theorem after_add (m : Machine) (j k : Nat) : m.after (j + k) = (m.after j).after k := by
  rw [after, Nat.add_comm, Function.iterate_add_apply]
  rfl

theorem cycleAnswers_succ
    (m : Machine) (n : Nat) :
    m.cycleAnswers (n + 1) = m.cycleAnswers n ++ [(m.after n).cycle.answer] := by
  rw [cycleAnswers, List.range_succ, List.map_append]
  rfl

theorem cycleRecords_succ
    (m : Machine) (n : Nat) :
    m.cycleRecords (n + 1) =
      m.cycleRecords n ++
        ((m.after n).cycle.events.filterMap Event.note?).map Note.record := by
  simp [cycleRecords, List.range_succ]

theorem cycleRecords_add
    (m : Machine) (j k : Nat) :
    m.cycleRecords (j + k) = m.cycleRecords j ++ (m.after j).cycleRecords k := by
  induction k with
  | zero => exact (List.append_nil _).symm
  | succ k ih =>
      rw [← Nat.add_assoc, cycleRecords_succ, cycleRecords_succ, ih, after_add, List.append_assoc]

theorem cyclesSucceed_succ_iff
    {n : Nat} :
    m.CyclesSucceed (n + 1) ↔
      m.CyclesSucceed n ∧ ∃ i, (m.after n).cycle.answer = .ok i := by
  constructor
  · intro h
    exact ⟨fun j hj => h j (by omega), h n (by omega)⟩
  · rintro ⟨h, hn⟩ j hj
    obtain hlt | rfl : j < n ∨ j = n := by omega
    · exact h j hlt
    · exact hn

theorem CyclesSucceed.mono {j k : Nat} (h : m.CyclesSucceed k) (hle : j ≤ k) : m.CyclesSucceed j :=
  fun i hi => h i (Nat.lt_of_lt_of_le hi hle)

theorem CyclesSucceed.after
    {j k : Nat} (h : m.CyclesSucceed (j + k)) :
    (m.after j).CyclesSucceed k := by
  intro i hi
  rw [← after_add]
  exact h (j + i) (Nat.add_lt_add_left hi j)

theorem exists_ends
    (m : Machine) (limit : Nat) :
    ∃ n fault, m.Ends limit n fault := by
  induction limit with
  | zero => exact ⟨0, none, .finished (fun j hj => absurd hj (by omega))⟩
  | succ limit ih =>
      -- a higher limit matters only if no cycle failed below the lower one
      obtain ⟨n, _, hsucceed | ⟨hlt, hsucceed, hfault⟩⟩ := ih
      · cases hlast : (m.after limit).cycle.answer with
        | ok i => exact ⟨_, _, .finished (cyclesSucceed_succ_iff.mpr ⟨hsucceed, i, hlast⟩)⟩
        | error fault => exact ⟨_, _, .halted (by omega) hsucceed hlast⟩
      · exact ⟨_, _, .halted (by omega) hsucceed hfault⟩

namespace Ends

variable {limit n n' : Nat} {fault fault' : Option Fault}

theorem le (h : m.Ends limit n fault) : n ≤ limit := by
  obtain _ | ⟨hlt, _, _⟩ := h <;> omega

theorem cyclesSucceed (h : m.Ends limit n fault) : m.CyclesSucceed n := by
  obtain h | ⟨_, h, _⟩ := h <;> exact h

/-- Before the limit, only a fault ends the cycles. -/
theorem answer_of_lt
    (h : m.Ends limit n fault) (hlt : n < limit) :
    ∃ f, fault = some f ∧ (m.after n).cycle.answer = .error f := by
  obtain _ | ⟨_, _, hfault⟩ := h
  · omega
  · exact ⟨_, rfl, hfault⟩

theorem answer_of_fault {f : Fault} (h : m.Ends limit n (some f)) :
    (m.after n).cycle.answer = .error f := by
  obtain _ | ⟨_, _, hfault⟩ := h
  exact hfault

theorem le_of_ends
    (h : m.Ends limit n fault) (h' : m.Ends limit n' fault') :
    n' ≤ n := by
  by_contra hlt
  obtain ⟨i, hok⟩ := h'.cyclesSucceed n (by omega)
  obtain ⟨f, -, herror⟩ := h.answer_of_lt (by have := h'.le; omega)
  rw [herror] at hok
  cases hok

/-- Cycles that end behind cycle `k` end there also if the counting begins with it. -/
theorem after
    {k : Nat} (h : m.Ends limit n fault) (hle : k ≤ n) :
    (m.after k).Ends (limit - k) (n - k) fault := by
  have hsucceed : (m.after k).CyclesSucceed (n - k) := by
    apply CyclesSucceed.after
    rw [Nat.add_sub_cancel' hle]
    exact h.cyclesSucceed
  obtain _ | ⟨hlt, -, hfault⟩ := h
  · exact .finished hsucceed
  · refine .halted (by omega) hsucceed ?_
    rw [← after_add, Nat.add_sub_cancel' hle]
    exact hfault

/-- There is one way for the cycles to end. -/
theorem unique
    (h : m.Ends limit n fault) (h' : m.Ends limit n' fault') :
    n = n' ∧ fault = fault' := by
  obtain rfl : n = n' := by
    have := h.le_of_ends h'
    have := h'.le_of_ends h
    omega
  refine ⟨rfl, ?_⟩
  obtain _ | ⟨hlt, _, hfault⟩ := h
  · obtain _ | ⟨hlt, _, _⟩ := h'
    · rfl
    · omega
  · obtain ⟨f, rfl, hfault'⟩ := h'.answer_of_lt hlt
    rw [hfault] at hfault'
    injection hfault' with hf
    rw [hf]

end Ends

end Machine

end Chip8
