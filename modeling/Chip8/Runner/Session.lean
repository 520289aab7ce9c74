import Chip8.Machine.Cycle
import Chip8.Settings

/-!
# Running a program without a host

A session loads a program image into a fresh machine and runs it frame by frame.  A frame is a loop
over a fixed number of cycles, and behind each complete frame the session looks at the display.
Both loops are left from within a frame, when the settings say that it is enough or when a cycle
fails.  What a session has to show is a `Report`: the screen at the end, and the log.
-/

namespace Chip8

namespace Runner

/-- What a session itself has to say. -/
inductive SessionNote where
  /-- The image at `path`, of `length` bytes, was loaded. -/
  | loaded (path : String) (length : Nat)
  /-- A cycle failed after a number of cycles that did not. -/
  | halted (cycles : Nat) (fault : Fault)
  /-- The session ran for as long as it was to. -/
  | finished (cycles frames unrecognized : Nat)
deriving DecidableEq

def SessionNote.record : SessionNote → Record
  | loaded path length => ⟨.info, "loaded rom", [("path", path), ("bytes", toString length)]⟩
  | halted cycles fault =>
    ⟨.error, "emulation halted", [("cycles", toString cycles), ("error", fault.message)]⟩
  | finished cycles frames unrecognized =>
    ⟨.info, "finished",
      [("cycles", toString cycles), ("frames", toString frames),
        ("unrecognized", toString unrecognized)]⟩

/-- What a command shows and how it ends. -/
structure Report where
  exitCode : Nat
  stdout : List String
  stderr : List String
deriving DecidableEq, Inhabited

/-- A program in the middle of its run. -/
structure Session where
  settings : Settings
  machine : Machine
  cycles : Nat
  /-- The looks at the display that found something new. -/
  frames : Nat
  /-- The records of the log, the latest first. -/
  log : List Record
deriving DecidableEq

/-- How the loop over the cycles of a frame ends. -/
inductive FrameEnd where
  /-- Every cycle of the frame was carried out. -/
  | complete (session : Session)
  /-- The session has run for as long as it was to, which ends the loop over the frames too. -/
  | reached (session : Session)
  /-- A cycle failed, and the session says so. -/
  | halted (session : Session) (fault : Fault)
deriving DecidableEq

/-- Whether a run goes on, and if not, whether that is because a cycle failed. -/
inductive Progress where
  | running (session : Session)
  | ended (session : Session) (fault : Option Fault)
deriving DecidableEq

/-- Whether a log that starts at `threshold` shows a record.  Traces are never shown. -/
def shows (threshold : Severity) (r : Record) : Bool :=
  r.severity ≠ .trace && r.severity.reaches threshold

def rowText (row : List Bool) : String :=
  String.ofList (row.map fun isOn => if isOn then '#' else '.')

def screenText (s : Screen) : List String :=
  s.rows.map rowText

namespace Session

def write (s : Session) (records : List Record) : Session :=
  { s with log := (records.filter (shows s.settings.logLevel)).reverse ++ s.log }

def follow (s : Session) (events : List Event) : Session :=
  s.write ((events.filterMap Event.note?).map Note.record)

def note (s : Session) (n : SessionNote) : Session :=
  s.write [n.record]

def fresh (settings : Settings) (random : Random.Stream) : Session :=
  let random := settings.seed.elim random Random.Stream.ofSeed
  let s : Session := ⟨settings, Machine.powerOn random, 0, 0, []⟩
  s.follow [.note .reset]

def load (s : Session) (path : String) (image : Except ReadFailure (List UInt8)) :
    Except Fault Session :=
  match image with
  | .error failure => .error (.unreadable failure)
  | .ok program => do
    let loaded ← s.machine.load program
    return ({ s with machine := loaded.machine }.follow loaded.events).note
      (.loaded path program.length)

/-- The cycles between two looks at the display, of which there is one at least. -/
def frameLength (s : Session) : Nat :=
  max s.settings.cyclesPerFrame.toNat 1

/-- Whether the session has run for as long as it was to. -/
def isOver (s : Session) : Bool :=
  match s.settings.maxCycles with
  | some limit => limit.toNat ≤ s.cycles
  | none => false

/-- Carry out what is left of a frame, `n` cycles.  Before each of them the session may be over. -/
def runFrame : Nat → Session → FrameEnd
  | 0, s => .complete s
  | n + 1, s =>
    if s.isOver then .reached s
    else
      let cycled := s.machine.cycle
      let s := { s with machine := cycled.machine }.follow cycled.events
      match cycled.answer with
      | .error fault => .halted (s.note (.halted s.cycles fault)) fault
      | .ok _ => { s with cycles := s.cycles + 1 }.runFrame n

/-- Look at the display, and count the look if there is something new to see. -/
def look (s : Session) : Session :=
  let (isDirty, machine) := s.machine.takeDirty
  { s with
    machine := machine
    frames := s.frames + if isDirty then 1 else 0 }

/-- The last words of a session that has run for as long as it was to. -/
def finish (s : Session) : Session :=
  s.note (.finished s.cycles s.frames s.machine.unrecognized)

end Session

/-- What becomes of a session behind the loop over the cycles of a frame. -/
def FrameEnd.progress : FrameEnd → Progress
  | complete s => .running s.look
  | reached s => .ended s.finish none
  | halted s fault => .ended s (some fault)

namespace Session

/-- Go on for up to `n` frames. -/
def advance : Nat → Session → Progress
  | 0, s => .running s
  | n + 1, s =>
    match (s.runFrame s.frameLength).progress with
    | .running s => s.advance n
    | ended => ended

def lines (s : Session) : List String :=
  s.log.reverse.map Record.line

/-- What a session has to show once it is over. -/
def report (s : Session) (fault : Option Fault) : Report where
  exitCode := if fault.isSome then 1 else 0
  stdout := screenText s.machine.screen
  stderr := s.lines ++ fault.toList.map Fault.message

/-- What a session has to show that could not load its program. -/
def refusal (s : Session) (fault : Fault) : Report where
  exitCode := 1
  stdout := []
  stderr := s.lines ++ [fault.message]

/-- The lines of the log as it is by now, and the session with none. -/
def takeLines (s : Session) : List String × Session :=
  (s.lines, { s with log := [] })

end Session

/-- The whole run of a program image, if it is over within `limit + 1` frames. -/
def run (settings : Settings) (random : Random.Stream) (path : String)
    (image : Except ReadFailure (List UInt8)) (limit : Nat) : Option Report :=
  let s := Session.fresh settings random
  match s.load path image with
  | .error fault => some (s.refusal fault)
  | .ok s =>
    match s.advance (limit + 1) with
    | .running _ => none
    | .ended s fault => some (s.report fault)

def versionLine : String := "chip8vm 0.1.0"

/-- What is shown for a command line that breaks the rules. -/
def usageReport : Report where
  exitCode := 2
  stdout := []
  stderr := ["usage: chip8vm [-m CYCLES] [-c CYCLES] [-s SEED] [-l LEVEL] ROM"]

def versionReport : Report where
  exitCode := 0
  stdout := [versionLine]
  stderr := []

end Runner

end Chip8
