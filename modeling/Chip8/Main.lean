import Chip8.Runner.Options
import Chip8.Runner.Session

/-!
# The command

Reads a program image from a file, runs it, and shows the log and the final screen.
-/

namespace Chip8

namespace Runner

/-- The number of a system error.  A file that cannot be opened reports it with its sign changed. -/
def systemNumber (code : UInt32) : Nat :=
  if code.toNat < UInt32.size / 2 then code.toNat else UInt32.size - code.toNat

/-- The cause behind a system error with a given number, if it is one of those known by name. -/
def namedFailure? : Nat → Option ReadFailure
  | 2 => some .notFound
  | 13 => some .accessDenied
  | 20 => some .notDirectory
  | 21 => some .isDirectory
  | 36 => some .nameTooLong
  | _ => none

/-- The number of a failed read, if the failure is of a sort that a read is known to have. -/
def readNumber? : IO.Error → Option Nat
  | .noFileOrDirectory _ code _ => some (systemNumber code)
  | .inappropriateType _ code _ => some (systemNumber code)
  | .invalidArgument _ code _ => some (systemNumber code)
  | .permissionDenied _ code _ => some (systemNumber code)
  | _ => none

/-- The content of the file at `path`, or why there is none. -/
def readImage (path : String) : IO (Except ReadFailure (List UInt8)) := do
  try
    return .ok (← IO.FS.readBinFile path).toList
  catch failure =>
    return .error
      (((readNumber? failure).bind namedFailure?).getD (.other (toString failure)))

/-- Show a report and give its exit code. -/
def showReport (report : Report) : IO UInt32 := do
  for line in report.stderr do IO.eprintln line
  for line in report.stdout do IO.println line
  return UInt32.ofNat report.exitCode

/-- Carry out the `left` cycles that are left of a frame, showing the log now and then. -/
partial def playFrame (left : Nat) (session : Session) : IO FrameEnd := do
  match session.runFrame (min left 10000) with
  | .complete session =>
    let (lines, session) := session.takeLines
    for line in lines do IO.eprintln line
    if left ≤ 10000 then return .complete session else playFrame (left - 10000) session
  | ended => return ended

/-- Go on frame by frame until the session is over. -/
partial def playSession (session : Session) : IO UInt32 := do
  match (← playFrame session.frameLength session).progress with
  | .running session => playSession session
  | .ended session fault => showReport (session.report fault)

/-- Carry out a command line. -/
def command (arguments : List String) : IO UInt32 := do
  match Invocation.ofArguments? arguments with
  | none => showReport usageReport
  | some .version => showReport versionReport
  | some (.run path settings) =>
    let random := Random.Stream.ofSeed (UInt64.ofNat (← IO.rand 0 (UInt64.size - 1)))
    let session := Session.fresh settings random
    match session.load path (← readImage path) with
    | .error fault => showReport (session.refusal fault)
    | .ok session => playSession session

end Runner

end Chip8

/-- Run the command. -/
def main (arguments : List String) : IO UInt32 :=
  Chip8.Runner.command arguments
