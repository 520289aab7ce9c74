import Chip8.Settings

/-!
# The command line

A command line names a program image and may choose the settings of the run.  An option is a letter
after one dash or a word after two.  Its value is the next argument, or is joined to the option: to
a word by an equals sign, to a letter with or without one.  Every argument after a lone pair of
dashes names an image.  `Invocation.ofArguments?` has no answer for a command line that breaks
these rules.
-/

namespace Chip8

namespace Runner

inductive Choice where
  | maxCycles
  | cyclesPerFrame
  | seed
  | logLevel
deriving DecidableEq

namespace Choice

def all : List Choice :=
  [maxCycles, cyclesPerFrame, seed, logLevel]

/-- The word that stands for a choice after two dashes. -/
def word : Choice → List Char
  | maxCycles => "max-cycles".toList
  | cyclesPerFrame => "cycles-per-frame".toList
  | seed => "seed".toList
  | logLevel => "log-level".toList

/-- The letter that stands for a choice after one dash. -/
def letter : Choice → Char
  | maxCycles => 'm'
  | cyclesPerFrame => 'c'
  | seed => 's'
  | logLevel => 'l'

end Choice

/-- What one argument says by itself. -/
inductive Argument where
  | image (path : String)
  /-- An option, with its value if that is joined to it. -/
  | option (choice : Choice) (value : Option (List Char))
  | version
  /-- From here on every argument names an image. -/
  | endOfOptions
  | unknown
deriving DecidableEq

namespace Argument

/-- The argument with `text` after one dash. -/
def ofShort : List Char → Argument
  | [] => image "-"
  | 'V' :: _ => version
  | letter :: value =>
    match Choice.all.find? fun choice => choice.letter == letter with
    | none => unknown
    | some choice =>
      match value with
      | [] => option choice none
      | '=' :: value => option choice (some value)
      | value => option choice (some value)

/-- The argument with `text` after two dashes. -/
def ofLong (text : List Char) : Argument :=
  let word := text.takeWhile (· ≠ '=')
  match text.dropWhile (· ≠ '='), Choice.all.find? fun choice => choice.word == word with
  | [], some choice => option choice none
  | _ :: value, some choice => option choice (some value)
  | [], none => if word = "version".toList then version else unknown
  | _ :: _, none => unknown

def ofString (text : String) : Argument :=
  match text.toList with
  | ['-', '-'] => endOfOptions
  | '-' :: '-' :: text => ofLong text
  | '-' :: text => ofShort text
  | _ => image text

end Argument

/-- The value of a decimal number below `bound`, which may have a plus sign before its digits. -/
def unsigned? (bound : Nat) (text : List Char) : Option Nat :=
  let digits := match text with
    | '+' :: digits => digits
    | _ => text
  if digits ≠ [] ∧ digits.all Char.isDigit then
    let value := Nat.ofDigitChars 10 digits 0
    if value < bound then some value else none
  else none

/-- The value of a decimal number below `bound`, which may have a sign before its digits.  After a
minus sign only zero is left. -/
def signed? (bound : Nat) : List Char → Option Nat
  | '-' :: '+' :: _ => none
  | '-' :: digits => unsigned? 1 digits
  | text => unsigned? bound text

structure Chosen where
  image : Option String
  maxCycles : Option UInt64
  cyclesPerFrame : Option UInt32
  seed : Option UInt64
  logLevel : Option Severity
deriving DecidableEq

namespace Chosen

def nothing : Chosen :=
  ⟨none, none, none, none, none⟩

def chooseImage? (c : Chosen) (path : String) : Option Chosen :=
  if c.image.isNone ∧ path ≠ "" then some { c with image := some path } else none

def choose? (c : Chosen) (choice : Choice) (value : List Char) : Option Chosen :=
  match choice with
  | .maxCycles => do
    guard c.maxCycles.isNone
    return { c with maxCycles := some (UInt64.ofNat (← unsigned? UInt64.size value)) }
  | .cyclesPerFrame => do
    guard c.cyclesPerFrame.isNone
    return { c with cyclesPerFrame := some (UInt32.ofNat (← signed? UInt32.size value)) }
  | .seed => do
    guard c.seed.isNone
    return { c with seed := some (UInt64.ofNat (← unsigned? UInt64.size value)) }
  | .logLevel => do
    guard c.logLevel.isNone
    return { c with logLevel := some (← Severity.ofName? (String.ofList value)) }

end Chosen

/-- What a command line asks for. -/
inductive Invocation where
  | version
  | run (path : String) (settings : Settings)
deriving DecidableEq

namespace Invocation

/-- The cycles after which a run stops when the command line does not choose. -/
def defaultMaxCycles : UInt64 := 10000

/-- The run of what was chosen.  Zero cycles stand for a run that goes on. -/
def ofChosen? (c : Chosen) : Option Invocation := do
  let maxCycles := c.maxCycles.getD defaultMaxCycles
  return run (← c.image)
    { logLevel := c.logLevel.getD Settings.default.logLevel
      seed := c.seed
      cyclesPerFrame := c.cyclesPerFrame.getD Settings.default.cyclesPerFrame
      maxCycles := if maxCycles = 0 then none else some maxCycles }

/-- Whether an argument cannot be the value of the option before it. -/
def looksLikeOption (text : String) : Bool :=
  match text.toList with
  | ['-'] => false
  | '-' :: _ => true
  | _ => false

mutual

/-- Go on with arguments of which none belongs to what came before. -/
def scan (c : Chosen) : List String → Option Invocation
  | [] => ofChosen? c
  | text :: rest =>
    match Argument.ofString text with
    | .image path => do scan (← c.chooseImage? path) rest
    | .option choice (some value) => do scan (← c.choose? choice value) rest
    | .option choice none => scanValue c choice rest
    | .version => some .version
    | .endOfOptions => do ofChosen? (← rest.foldlM Chosen.chooseImage? c)
    | .unknown => none

/-- Go on with arguments of which the first is the value of an option. -/
def scanValue (c : Chosen) (choice : Choice) : List String → Option Invocation
  | [] => none
  | value :: rest =>
    if looksLikeOption value then none
    else do scan (← c.choose? choice value.toList) rest

end

/-- What a command line asks for, unless it breaks the rules.  The version is told as soon as it is
asked for. -/
def ofArguments? (arguments : List String) : Option Invocation :=
  scan Chosen.nothing arguments

end Invocation

end Runner

end Chip8
