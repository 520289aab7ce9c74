import Chip8.Machine.Cycle

/-!
# Runs

A run is a number of cycles one after the other, which ends early at a cycle that fails.
-/

namespace Chip8

namespace Machine

/-- Carry out cycles until one fails, at most `n` of them.  The answer has what each came to. -/
def cycles : Nat → Machine → Outcome (List StepResult)
  | 0, m => ⟨[], m, []⟩
  | n + 1, m =>
    let first := m.cycle
    match first.answer with
    | .error _ => ⟨[first.answer], first.machine, first.events⟩
    | .ok _ =>
      let others := first.machine.cycles n
      ⟨first.answer :: others.answer, others.machine, first.events ++ others.events⟩

end Machine

/-- What a run came to, in numbers. -/
structure RunTally where
  /-- The cycles that succeeded. -/
  succeeded : Nat
  /-- Those of them that carried out no instruction. -/
  idle : Nat
  /-- Those of them that carried out an instruction which changes the screen. -/
  display : Nat
  /-- Why the run ended early, if it did. -/
  fault : Option Fault
deriving DecidableEq

namespace RunTally

/-- Count one more cycle. -/
def add (t : RunTally) : StepResult → RunTally
  | .error fault => { t with fault := some fault }
  | .ok none => { t with succeeded := t.succeeded + 1, idle := t.idle + 1 }
  | .ok (some i) =>
    { t with
      succeeded := t.succeeded + 1
      display := t.display + if i.isDisplay then 1 else 0 }

/-- Count the cycles of a run. -/
def ofResults (results : List StepResult) : RunTally :=
  results.foldl add ⟨0, 0, 0, none⟩

end RunTally

end Chip8
