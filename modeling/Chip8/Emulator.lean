import Chip8.Machine.Action
import Chip8.Machine.Run
import Chip8.Settings

/-!
# The emulator

An emulator is a machine together with those who listen to it: a speaker, if one is attached, and
a log that keeps records from some severity on.  `Emulator.perform` carries out one request of a
host and gives the reply, what the speaker heard, and what the log was given.
-/

namespace Chip8

/-- Which tones a speaker can hear. -/
inductive Speaker where
  | full
  /-- It takes no notice of a tone that starts. -/
  | stopOnly
deriving DecidableEq

def Speaker.hears : Speaker → Tone → Bool
  | full, _ => true
  | stopOnly, tone => tone == .stop

structure Emulator where
  machine : Machine
  speaker : Option Speaker
  /-- The least severity that the log keeps; without one nothing is kept. -/
  threshold : Option Severity
deriving DecidableEq

/-- What came of an operation, as the host and the listeners have it. -/
structure Response (α : Type) where
  answer : α
  heard : List Tone
  log : List Record

namespace Emulator

def heard (e : Emulator) (events : List Event) : List Tone :=
  match e.speaker with
  | some speaker => (events.filterMap Event.tone?).filter speaker.hears
  | none => []

def kept (e : Emulator) (events : List Event) : List Record :=
  match e.threshold with
  | some threshold =>
    ((events.filterMap Event.note?).map Note.record).filter (·.severity.reaches threshold)
  | none => []

/-- Attach a speaker in place of the one before. -/
def attach (e : Emulator) (speaker : Speaker) : Emulator :=
  { e with speaker := some speaker }

/-- Let the host and the listeners know what came of an operation of the machine. -/
def deliver {α : Type} (e : Emulator) (outcome : Outcome α) : Response α × Emulator :=
  (⟨outcome.answer, e.heard outcome.events, e.kept outcome.events⟩,
    { e with machine := outcome.machine })

def perform (e : Emulator) (action : Action) : Response Reply × Emulator :=
  e.deliver (e.machine.perform action)

/-- Carry out cycles until one fails, at most `n` of them. -/
def cycles (e : Emulator) (n : Nat) : Response (List StepResult) × Emulator :=
  e.deliver (e.machine.cycles n)

def performAll (e : Emulator) (actions : List Action) : Response (List Reply) × Emulator :=
  e.deliver (e.machine.performAll actions)

/-- An emulator that was just switched on, and what its log was given of that. -/
def powerOn (random : Random.Stream) (threshold : Option Severity) : List Record × Emulator :=
  let e : Emulator := ⟨Machine.powerOn random, none, threshold⟩
  (e.kept [.note .reset], e)

/-- An emulator after the settings: its log starts at the severity they give, and its random
stream at their seed if there is one. -/
def ofSettings (random : Random.Stream) (settings : Settings) : List Record × Emulator :=
  match settings.seed with
  | some seed => powerOn (Random.Stream.ofSeed seed) (some settings.logLevel)
  | none => powerOn random (some settings.logLevel)

/-- An emulator with a program image that was read from storage in memory, and no log. -/
def ofImage (random : Random.Stream) (image : Except ReadFailure (List UInt8)) :
    Except Fault Emulator :=
  match image with
  | .error failure => .error (.unreadable failure)
  | .ok program => do
    let loaded ← (Machine.powerOn random).load program
    return ⟨loaded.machine, none, none⟩

end Emulator

end Chip8
