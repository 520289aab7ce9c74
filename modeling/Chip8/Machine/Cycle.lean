import Chip8.Machine.Execute
import Chip8.Reply

/-!
# Steps and cycles

A step fetches the word at the program counter and carries it out, or, while a key press is waited
for, looks for one.  A cycle is a step and, if that succeeds, one tick of the timers.
-/

namespace Chip8

namespace Machine

/-- The word at the program counter, if both its bytes are in memory. -/
def fetch (m : Machine) : Except Fault UInt16 :=
  let pc := m.pc.toNat
  if pc + 1 < Memory.size then
    .ok (UInt16.ofNat ((m.memory.byte pc).toNat * 256 + (m.memory.byte (pc + 1)).toNat))
  else .error (.fetchOutOfBounds m.pc)

/-- Carry out an instruction that was fetched as `word`, with a note beforehand. -/
def executeWord (m : Machine) (word : UInt16) (i : Instruction Register) : Outcome StepResult :=
  let note := Event.note (.executing m.pc word i.recorded)
  match m.execute i with
  | .ok effect => ⟨.ok (some i), effect.machine, note :: effect.events⟩
  | .error fault => ⟨.error fault, m, [note]⟩

/-- Pass over a word that is no instruction. -/
def skipWord (m : Machine) (word : UInt16) : Outcome StepResult where
  answer := .ok none
  machine := { m.advance with unrecognized := m.unrecognized + 1 }
  events := [.note (.skipped m.pc word)]

/-- Fetch a word and carry it out, or look for the key press that is waited for. -/
def step (m : Machine) : Outcome StepResult :=
  match m.mode with
  | .awaitingKey x =>
    let effect := m.resolveWait x
    ⟨.ok none, effect.machine, effect.events⟩
  | .running =>
    match m.fetch with
    | .error fault => ⟨.error fault, m, []⟩
    | .ok word =>
      match Instruction.ofWord? word with
      | some i => m.executeWord word i
      | none => m.skipWord word

/-- A step and a tick.  A step that fails is noted and no time passes. -/
def cycle (m : Machine) : Outcome StepResult :=
  let stepped := m.step
  match stepped.answer with
  | .ok _ =>
    let ticked := stepped.machine.tick
    ⟨stepped.answer, ticked.machine, stepped.events ++ ticked.events⟩
  | .error fault =>
    ⟨stepped.answer, stepped.machine,
      stepped.events ++ [.note (.halted stepped.machine.pc fault)]⟩

end Machine

end Chip8
