import Chip8.Keypad.Action
import Chip8.Machine.Cycle
import Chip8.Screen.Action

/-!
# Requests to the machine

What a host may ask of the machine, as data, so that a whole history of a machine is a list of
requests.  `Machine.perform` carries out one of them and `Machine.performAll` a list.
-/

namespace Chip8

/-- One request of a host to the machine. -/
inductive Action where
  | reset
  | load (program : List UInt8)
  | seed (seed : UInt64)
  | cycle
  | step
  | execute (i : Instruction Register)
  | tick
  | press (key : Key)
  | release (key : Key)
  | setKey (key : Key) (isHeld : Bool)
  /-- Bring the keys to where the host's keyboard has them. -/
  | pollKeys (held : List Key)
  | cancelWait
  | clearDirty
  | takeDirty
  /-- A request straight to the keypad. -/
  | keypad (action : KeypadAction)
  /-- A request straight to the screen. -/
  | screen (action : ScreenAction)
deriving DecidableEq

namespace Machine

/-- An answer that comes with no event. -/
def answer (reply : Reply) (m : Machine) : Outcome Reply :=
  ⟨reply, m, []⟩

/-- What comes of an operation that has nothing to tell the host. -/
def carryOut (effect : Effect) : Outcome Reply :=
  ⟨.done, effect.machine, effect.events⟩

/-- What comes of an operation that may fail; if it does, the machine is as before. -/
def attempt (m : Machine) : Except Fault Effect → Outcome Reply
  | .ok effect => carryOut effect
  | .error fault => ⟨.failed fault, m, []⟩

def perform (m : Machine) : Action → Outcome Reply
  | .reset => carryOut m.reset
  | .load program => m.attempt (m.load program)
  | .seed seed => answer .done (m.seed seed)
  | .cycle =>
    let cycled := m.cycle
    ⟨.cycled cycled.answer, cycled.machine, cycled.events⟩
  | .step =>
    let stepped := m.step
    ⟨.ofExcept stepped.answer, stepped.machine, stepped.events⟩
  | .execute i => m.attempt (m.execute i)
  | .tick => carryOut m.tick
  | .press key => answer .done { m with keypad := m.keypad.press key }
  | .release key => answer .done { m with keypad := m.keypad.release key }
  | .setKey key isHeld => answer .done { m with keypad := m.keypad.setKey key isHeld }
  | .pollKeys held => answer .done { m with keypad := m.keypad.update held }
  | .cancelWait =>
    let cancelled := m.cancelWait
    ⟨.truth cancelled.answer, cancelled.machine, cancelled.events⟩
  | .clearDirty => answer .done { m with screen := m.screen.clearDirty }
  | .takeDirty =>
    let (isDirty, m) := m.takeDirty
    answer (.truth isDirty) m
  | .keypad action =>
    let (reply, keypad) := m.keypad.perform action
    answer reply { m with keypad := keypad }
  | .screen action =>
    let (reply, screen) := m.screen.perform action
    answer reply { m with screen := screen }

def performAll : Machine → List Action → Outcome (List Reply)
  | m, [] => ⟨[], m, []⟩
  | m, action :: actions =>
    let first := m.perform action
    let others := first.machine.performAll actions
    ⟨first.answer :: others.answer, others.machine, first.events ++ others.events⟩

end Machine

end Chip8
