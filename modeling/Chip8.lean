import Chip8.Emulator
import Chip8.Instruction.Document
import Chip8.Json.Parser
import Chip8.Json.Printer
import Chip8.Keypad.Document
import Chip8.Settings.Document
import Chip8.Main
import Chip8.Proofs.Frame
import Chip8.Proofs.Step
import Chip8.Proofs.InPlace
import Chip8.Proofs.Fault
import Chip8.Proofs.KeyWait
import Chip8.Proofs.Tone
import Chip8.Proofs.Bounds
import Chip8.Proofs.CallStack
import Chip8.Proofs.Subroutine
import Chip8.Proofs.Display
import Chip8.Proofs.Pacing
import Chip8.Proofs.Reset
import Chip8.Proofs.Random
import Chip8.Proofs.Drawing
import Chip8.Proofs.Stamp
import Chip8.Proofs.Cycles
import Chip8.Proofs.Tally
import Chip8.Proofs.Report
import Chip8.Proofs.Footprint
import Chip8.Proofs.Arithmetic
import Chip8.Proofs.CancelledWait
import Chip8.Proofs.Image
import Chip8.Proofs.KeypadHistory
import Chip8.Proofs.Polling
import Chip8.Proofs.TwoFieldLatch
import Chip8.Proofs.ScreenHistory
import Chip8.Proofs.Transfer
import Chip8.Proofs.TimerHistory
import Chip8.Proofs.Diagnostics
import Chip8.Proofs.WordCount
import Chip8.Proofs.Observers
import Chip8.Proofs.Frames
import Chip8.Proofs.Loading
import Chip8.Proofs.Decoding
import Chip8.Proofs.Names
import Chip8.Proofs.JsonText
import Chip8.Proofs.JsonReading
import Chip8.Proofs.JsonPrinting
import Chip8.Proofs.Members
import Chip8.Proofs.Recorded
import Chip8.Proofs.GivenSettings
