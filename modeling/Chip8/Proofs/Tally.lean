import Chip8.Machine.Run
import Chip8.Proofs.Cycles
import Chip8.Proofs.Display
import Mathlib.Data.Nat.Count

/-!
# Runs and their tallies

`Machine.cycles` carries out cycles until one fails.  It stops where `Machine.Ends` says that the
cycles end, with the machine as it is by then, and with the answers and the events of the cycles one
behind the other.  So the tally of a run counts what the cycles are to their machines: how many of
them succeed, wait or pass over a word, and change the screen.
-/

namespace Chip8

namespace Machine

variable {m : Machine} {limit n : Nat} {fault : Option Fault}

/-- The cycles that change the screen are told by their answers. -/
theorem displays_cycle_iff :
    m.Displays .cycle ↔
      ∃ i : Instruction Register, m.cycle.answer = .ok (some i) ∧ i.isDisplay = true := by
  rw [cycle_answer]
  exact and_iff_right rfl

instance (m : Machine) (action : Action) : Decidable (m.Displays action) :=
  match hanswer : m.step.answer with
  | .ok (some i) =>
    decidable_of_iff (action.runs = true ∧ i.isDisplay = true) (by simp [Displays, hanswer])
  | .ok none => .isFalse (by simp [Displays, hanswer])
  | .error _ => .isFalse (by simp [Displays, hanswer])

/-- The next cycle carries out no instruction: it looks for a key press or passes over a word. -/
def Idles (m : Machine) : Prop :=
  m.isAwaitingKey = true ∨ m.passedOver?.isSome = true

instance (m : Machine) : Decidable m.Idles :=
  inferInstanceAs (Decidable (_ ∨ _))

theorem idles_iff : m.Idles ↔ m.cycle.answer = .ok none := by
  rw [cycle_answer, step_answer_eq_ok_none_iff]
  rfl

/-! ## What a run gives -/

/-- The events of the first `n` cycles. -/
def cycleEvents (m : Machine) (n : Nat) : List Event :=
  (List.range n).flatMap fun j => (m.after j).cycle.events

theorem cycleAnswers_succ'
    (m : Machine) (n : Nat) :
    m.cycleAnswers (n + 1) = m.cycle.answer :: m.cycle.machine.cycleAnswers n := by
  rw [cycleAnswers, List.range_succ_eq_map, List.map_cons, List.map_map]
  rfl

theorem cycleEvents_succ'
    (m : Machine) (n : Nat) :
    m.cycleEvents (n + 1) = m.cycle.events ++ m.cycle.machine.cycleEvents n := by
  rw [cycleEvents, List.range_succ_eq_map, List.flatMap_cons, List.flatMap_map]
  rfl

/-- A run carries out the cycles up to where they end, the one that fails included. -/
theorem cycles_of_ends
    (h : m.Ends limit n fault) :
    m.cycles limit =
      { answer := m.cycleAnswers (n + fault.toList.length)
        machine := m.after n
        events := m.cycleEvents (n + fault.toList.length) } := by
  induction limit generalizing m n with
  | zero =>
      obtain rfl : n = 0 := Nat.le_zero.mp h.le
      obtain _ | ⟨hlt, -, -⟩ := h
      · rfl
      · omega
  | succ limit ih =>
      cases hanswer : m.cycle.answer with
      | error f =>
          have hfirst : m.Ends (limit + 1) 0 (some f) :=
            .halted (Nat.succ_pos limit) (fun j hj => absurd hj (by omega)) hanswer
          obtain ⟨rfl, rfl⟩ := h.unique hfirst
          have hsame : m.cycle.machine = m := by
            rw [cycle_of_error ((cycle_answer m).symm.trans hanswer)]
          have hevents : m.cycle.events = m.cycleEvents 1 := (List.append_nil _).symm
          simp only [cycles, hanswer, hsame, hevents]
          rw [← hanswer]
          rfl
      | ok i =>
          -- the first cycle succeeds, so the cycles do not end with it
          have hpos : 1 ≤ n := by
            by_contra hzero
            obtain rfl : n = 0 := by omega
            obtain ⟨f, -, herror⟩ := h.answer_of_lt (Nat.succ_pos limit)
            cases hanswer.symm.trans herror
          have hothers : m.cycle.machine.Ends limit (n - 1) fault := h.after hpos
          obtain ⟨k, rfl⟩ := Nat.exists_eq_add_of_le' hpos
          rw [Nat.add_right_comm, cycleAnswers_succ', cycleEvents_succ']
          simp only [cycles, hanswer, ih hothers, Nat.add_sub_cancel]
          rfl

end Machine

/-! ## The tally -/

namespace RunTally

open Machine

variable {m : Machine} {limit n : Nat} {fault : Option Fault}

theorem ofResults_append_singleton
    (results : List StepResult) (result : StepResult) :
    ofResults (results ++ [result]) = (ofResults results).add result :=
  List.foldl_append

theorem ofResults_cycleAnswers
    (h : m.CyclesSucceed n) :
    ofResults (m.cycleAnswers n) =
      { succeeded := n
        idle := Nat.count (fun j => (m.after j).Idles) n
        display := Nat.count (fun j => (m.after j).Displays .cycle) n
        fault := none } := by
  induction n with
  | zero => rfl
  | succ n ih =>
      obtain ⟨hbefore, i, hok⟩ := cyclesSucceed_succ_iff.mp h
      rw [cycleAnswers_succ, ofResults_append_singleton, ih hbefore, hok, Nat.count_succ,
        Nat.count_succ]
      cases i with
      | none =>
          have hidles : (m.after n).Idles := idles_iff.mpr hok
          have hdisplays : ¬ (m.after n).Displays .cycle := by
            rw [displays_cycle_iff, hok]
            rintro ⟨i, ⟨⟩, -⟩
          rw [if_pos hidles, if_neg hdisplays]
          rfl
      | some i =>
          have hidles : ¬ (m.after n).Idles := by
            rw [idles_iff, hok]
            rintro ⟨⟩
          have hdisplays : (m.after n).Displays .cycle ↔ i.isDisplay = true := by
            rw [displays_cycle_iff, hok]
            constructor
            · rintro ⟨_, ⟨rfl⟩, hdisplay⟩
              exact hdisplay
            · intro hdisplay
              exact ⟨i, rfl, hdisplay⟩
          rw [if_neg hidles]
          simp only [hdisplays]
          rfl

/-- The tally of a run has the number of cycles that succeed, how many of them idle and how many
change the screen, and the fault for which the run ends early. -/
theorem ofResults_cycles
    (h : m.Ends limit n fault) :
    ofResults (m.cycles limit).answer =
      { succeeded := n
        idle := Nat.count (fun j => (m.after j).Idles) n
        display := Nat.count (fun j => (m.after j).Displays .cycle) n
        fault := fault } := by
  rw [cycles_of_ends h]
  cases fault with
  | none => exact ofResults_cycleAnswers h.cyclesSucceed
  | some f =>
      rw [Option.toList_some, List.length_singleton, cycleAnswers_succ,
        ofResults_append_singleton, ofResults_cycleAnswers h.cyclesSucceed, h.answer_of_fault]
      rfl

end RunTally

end Chip8
