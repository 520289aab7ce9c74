import Chip8.CallStack
import Chip8.Event
import Chip8.Instruction.Word
import Chip8.Memory
import Chip8.Random.Stream
import Chip8.Screen.Sprite

/-!
# The machine

A `Machine` is everything that a program can read or write, the random stream, and the count of
words that were passed over because they are no instruction.  Its operations are functions to the
machine after them and the events on the way; nothing that listens to the events has an influence
on what the machine does.
-/

namespace Chip8

/-- Whether the machine carries out instructions or waits for a key press. -/
inductive Mode where
  | running
  | awaitingKey (x : Register)
deriving DecidableEq

structure Machine where
  memory : Memory
  stack : CallStack
  index : UInt16
  pc : UInt16
  v : Vector UInt8 16
  screen : Screen
  delay : UInt8
  /-- The ticks for which the tone still sounds. -/
  sound : UInt8
  keypad : Keypad
  mode : Mode
  /-- The words passed over since the last reset. -/
  unrecognized : Nat
  random : Random.Stream
deriving DecidableEq

/-- The machine after an operation, and what the outside was told meanwhile. -/
structure Effect where
  machine : Machine
  events : List Event
deriving DecidableEq

/-- The effect of an operation that also has an answer. -/
structure Outcome (α : Type) where
  answer : α
  machine : Machine
  events : List Event

namespace Machine

/-- The machine as it is switched on, with a given random stream. -/
def powerOn (random : Random.Stream) : Machine where
  memory := Memory.initial
  stack := CallStack.empty
  index := 0
  pc := 0x200
  v := Vector.replicate 16 0
  screen := Screen.blank.clear
  delay := 0
  sound := 0
  keypad := Keypad.released
  mode := .running
  unrecognized := 0
  random := random

/-- An operation that tells the outside nothing. -/
def silently (m : Machine) : Effect :=
  ⟨m, []⟩

def register (m : Machine) (x : Register) : UInt8 :=
  m.v.get x

def setRegister (m : Machine) (x : Register) (value : UInt8) : Machine :=
  { m with v := m.v.set x.val value }

def advance (m : Machine) : Machine :=
  { m with pc := m.pc + 2 }

/-- Go on to the next instruction, or if `condition` holds to the one after it. -/
def skipIf (m : Machine) (condition : Bool) : Machine :=
  { m with pc := m.pc + if condition then 4 else 2 }

/-! ## Timers -/

/-- The tone sounds while the sound timer is not zero. -/
def isTonePlaying (m : Machine) : Bool :=
  0 < m.sound

/-- Set the sound timer.  The speaker hears about it if that starts or silences the tone. -/
def setSound (m : Machine) (ticks : UInt8) : Effect where
  machine := { m with sound := ticks }
  events :=
    if m.sound = 0 ∧ ticks ≠ 0 then [.note (.toneStarted ticks), .tone .start]
    else if m.sound ≠ 0 ∧ ticks = 0 then [.note .toneCut, .tone .stop]
    else []

/-- Count both timers down by one, to zero and no further.  The speaker hears when the sound timer
runs out. -/
def tick (m : Machine) : Effect where
  machine :=
    { m with
      delay := if m.delay = 0 then 0 else m.delay - 1
      sound := if m.sound = 0 then 0 else m.sound - 1 }
  events := if m.sound = 1 then [.note .toneEnded, .tone .stop] else []

/-! ## Reset and programs -/

/-- Bring everything but the random stream to where it is after power-on.  A tone that sounds is
silenced. -/
def reset (m : Machine) : Effect :=
  let silenced := m.setSound 0
  { machine :=
      { silenced.machine with
        memory := Memory.initial
        stack := CallStack.empty
        index := 0
        pc := 0x200
        v := Vector.replicate 16 0
        screen := m.screen.clear
        delay := 0
        keypad := Keypad.released
        mode := .running
        unrecognized := 0 }
    events := silenced.events ++ [.note .reset] }

/-- Copy a program image into memory, if it fits. -/
def load (m : Machine) (program : List UInt8) : Except Fault Effect :=
  if Memory.programCapacity < program.length then
    .error (.loadCapacity program.length Memory.programCapacity)
  else
    .ok
      { machine := { m with memory := m.memory.write Memory.programStart program }
        events := [.note (.loaded program.length)] }

def seed (m : Machine) (seed : UInt64) : Machine :=
  { m with random := Random.Stream.ofSeed seed }

/-! ## Waiting for a key -/

def isAwaitingKey (m : Machine) : Bool :=
  m.mode ≠ .running

/-- Put the key press that was caught into register `x` and go on; without one, wait on. -/
def resolveWait (m : Machine) (x : Register) : Effect :=
  match m.keypad.takePress with
  | (some key, keypad) =>
    { machine :=
        { (m.setRegister x (UInt8.ofNat key.val)).advance with
          keypad := keypad
          mode := .running }
      events := [.note (.resolved x key)] }
  | (none, _) => m.silently

/-- Give up a wait for a key press: the register stays as it is and the program goes on.  The answer
says whether there was a wait. -/
def cancelWait (m : Machine) : Outcome Bool :=
  match m.mode with
  | .running => ⟨false, m, []⟩
  | .awaitingKey x =>
    { answer := true
      machine := { m.advance with keypad := m.keypad.stopListening, mode := .running }
      events := [.note (.cancelled x)] }

/-! ## The display -/

/-- Tell whether there is something to show, and count it as shown. -/
def takeDirty (m : Machine) : Bool × Machine :=
  (m.screen.isDirty, { m with screen := m.screen.clearDirty })

end Machine

end Chip8
