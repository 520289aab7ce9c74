import Chip8.Proofs.Cycles
import Chip8.Proofs.Diagnostics
import Mathlib.Data.Nat.Count

/-!
# The count of words in 64 bits

A machine counts the words that it has passed over with a natural number.  A counter of 64 bits
comes round when it has counted as many words as it has values.  What every request does to the
count is shown first; a counter that is moved alongside then holds the count modulo the number of
its values, whatever is asked of the machine, and it is exact as long as fewer requests have run the
program.  A session cannot have passed over more words than its limit allows for cycles, and the
limit has 64 bits itself, so in a session the counter is always exact.
-/

namespace Chip8

namespace Machine

/-- A request passes over a word if it runs the program and comes across a word that is no
instruction. -/
def passesOver (m : Machine) (action : Action) : Bool :=
  action.runs && m.passedOver?.isSome

/-- What a request does to a counter of 64 bits. -/
def moveCounter (m : Machine) (action : Action) (counter : UInt64) : UInt64 :=
  match action with
  | .reset => 0
  | action => if m.passesOver action then counter + 1 else counter

/-- A counter of 64 bits after some requests. -/
def counterAfter : Machine → List Action → UInt64 → UInt64
  | _, [], counter => counter
  | m, action :: actions, counter =>
    (m.perform action).machine.counterAfter actions (m.moveCounter action counter)

variable {m : Machine} {action : Action}

/-! ## One request -/

theorem unrecognized_of_passesOver
    (h : m.passesOver action = true) :
    (m.perform action).machine.unrecognized = m.unrecognized + 1 := by
  obtain ⟨hruns, hpassed⟩ := Bool.and_eq_true_iff.mp h
  obtain ⟨word, hword⟩ := Option.isSome_iff_exists.mp hpassed
  rw [m.perform_eq_step_of_runs (f := Machine.unrecognized) (fun _ => rfl) hruns,
    step_unrecognized, hword]
  rfl

/-- Only a reset and a word that is passed over change the count. -/
theorem unrecognized_of_not_passesOver
    (hreset : action ≠ .reset) (h : m.passesOver action = false) :
    (m.perform action).machine.unrecognized = m.unrecognized := by
  by_cases hruns : action.runs = true
  · have hpassed : m.passedOver? = none := by
      simpa [passesOver, hruns] using h
    rw [m.perform_eq_step_of_runs (f := Machine.unrecognized) (fun _ => rfl) hruns,
      step_unrecognized, hpassed]
    rfl
  · by_cases hspares : action.sparesCount = true
    · have hcycle : action ≠ .cycle := by
        rintro rfl
        exact hruns rfl
      exact (perform_of_ne_cycle hspares hcycle).2
    · cases action with
      | execute i =>
          apply attempt_induction (P := fun n => n.unrecognized = m.unrecognized) rfl
          intro e hexecute
          exact (execute_frame hexecute).unrecognized
      | reset => exact absurd rfl hreset
      | step => exact absurd rfl hruns
      | _ => exact absurd rfl hspares

/-- The counter holds the count modulo the number of its values. -/
theorem moveCounter_eq
    (m : Machine) (action : Action) :
    m.moveCounter action (UInt64.ofNat m.unrecognized) =
      UInt64.ofNat (m.perform action).machine.unrecognized := by
  by_cases hreset : action = .reset
  · subst hreset
    rfl
  · have hmove : m.moveCounter action (UInt64.ofNat m.unrecognized) =
        if m.passesOver action then UInt64.ofNat m.unrecognized + 1
        else UInt64.ofNat m.unrecognized := by
      cases action with
      | reset => exact absurd rfl hreset
      | _ => rfl
    rw [hmove]
    cases hpasses : m.passesOver action with
    | true =>
        rw [unrecognized_of_passesOver hpasses, UInt64.ofNat_add]
        rfl
    | false =>
        rw [unrecognized_of_not_passesOver hreset hpasses]
        rfl

/-- A request that does not run the program passes over no word. -/
theorem unrecognized_perform_le
    (m : Machine) (action : Action) :
    (m.perform action).machine.unrecognized ≤
      m.unrecognized + if action.runs then 1 else 0 := by
  by_cases hreset : action = .reset
  · subst hreset
    exact Nat.zero_le _
  · cases hpasses : m.passesOver action with
    | true =>
        rw [unrecognized_of_passesOver hpasses, if_pos (Bool.and_eq_true_iff.mp hpasses).1]
    | false =>
        rw [unrecognized_of_not_passesOver hreset hpasses]
        exact Nat.le_add_right ..

/-! ## A whole history -/

theorem counterAfter_eq
    (m : Machine) (actions : List Action) :
    m.counterAfter actions (UInt64.ofNat m.unrecognized) =
      UInt64.ofNat (m.performAll actions).machine.unrecognized := by
  induction actions generalizing m with
  | nil => rfl
  | cons action actions ih =>
      rw [counterAfter, moveCounter_eq, ih, performAll_cons]

theorem unrecognized_performAll_le
    (m : Machine) (actions : List Action) :
    (m.performAll actions).machine.unrecognized ≤
      m.unrecognized + actions.countP Action.runs := by
  induction actions generalizing m with
  | nil => exact Nat.le_refl _
  | cons action actions ih =>
      have hfirst := m.unrecognized_perform_le action
      have hothers := ih (m.perform action).machine
      rw [performAll_cons, List.countP_cons]
      dsimp only
      omega

/-- Since it was last zero, a counter of 64 bits is exact until the program has been run for as many
requests as the counter has values. -/
theorem counterAfter_exact
    {m : Machine} {actions : List Action} (hzero : m.unrecognized = 0)
    (hfew : actions.countP Action.runs < UInt64.size) :
    (m.counterAfter actions 0).toNat = (m.performAll actions).machine.unrecognized := by
  have hbound := m.unrecognized_performAll_le actions
  have hcounter := m.counterAfter_eq actions
  rw [hzero] at hbound hcounter
  have hlt : (m.performAll actions).machine.unrecognized < UInt64.size := by omega
  have hofNat : (0 : UInt64) = UInt64.ofNat 0 := rfl
  rw [hofNat, hcounter, UInt64.toNat_ofNat_of_lt' hlt]

/-! ## A session -/

/-- The words that are passed over are counted. -/
theorem after_unrecognized
    (start : Machine) (n : Nat) :
    (start.after n).unrecognized =
      start.unrecognized + Nat.count (fun k => (start.after k).passedOver?.isSome) n := by
  induction n with
  | zero => rfl
  | succ n ih =>
      have hcycle : (start.after n).cycle.machine.unrecognized =
          (start.after n).step.machine.unrecognized :=
        perform_eq_step_of_runs (fun _ => rfl) _ (rfl : Action.cycle.runs = true)
      rw [after_succ, hcycle, step_unrecognized, ih, Nat.count_succ, Nat.add_assoc]
      cases (start.after n).passedOver? <;> rfl

/-- Where the cycles of a machine that has counted nothing yet are limited by a number of 64 bits,
the count has 64 bits. -/
theorem after_unrecognized_exact
    {start : Machine} {limit : UInt64} {n : Nat} {fault : Option Fault}
    (hzero : start.unrecognized = 0) (hends : start.Ends limit.toNat n fault) :
    (UInt64.ofNat (start.after n).unrecognized).toNat = (start.after n).unrecognized := by
  have hcycles : n ≤ limit.toNat := hends.le
  have hcount : Nat.count (fun k => (start.after k).passedOver?.isSome) n ≤ n := Nat.count_le _
  have hlimit : limit.toNat < UInt64.size := limit.toNat_lt_size
  apply UInt64.toNat_ofNat_of_lt'
  rw [after_unrecognized, hzero]
  omega

end Machine

end Chip8
