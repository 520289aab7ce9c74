/-!
# Log records

A record has a severity, a message and named values in the order in which they were given.  A
terminal shows it on one line, with a short name of the severity and the values last to first.
-/

namespace Chip8

/-- How much a record matters, from least to most. -/
inductive Severity where
  | trace
  | debug
  | info
  | warning
  | error
  | critical
deriving DecidableEq

namespace Severity

/-- Every severity, from least to most. -/
def all : List Severity :=
  [trace, debug, info, warning, error, critical]

/-- The name of a severity in settings. -/
def name : Severity → String
  | trace => "trace"
  | debug => "debug"
  | info => "info"
  | warning => "warning"
  | error => "error"
  | critical => "critical"

/-- The four letters that a terminal shows for a severity. -/
def short : Severity → String
  | trace => "TRCE"
  | debug => "DEBG"
  | info => "INFO"
  | warning => "WARN"
  | error => "ERRO"
  | critical => "CRIT"

/-- The place of a severity in their order. -/
def rank : Severity → Nat
  | trace => 0
  | debug => 1
  | info => 2
  | warning => 3
  | error => 4
  | critical => 5

/-- The severity with a given name, if there is one. -/
def ofName? (text : String) : Option Severity :=
  all.find? fun severity => severity.name == text

/-- Whether a log that starts at `threshold` keeps a record of this severity. -/
def reaches (severity threshold : Severity) : Bool :=
  threshold.rank ≤ severity.rank

end Severity

/-- One entry of a log. -/
structure Record where
  severity : Severity
  message : String
  fields : List (String × String)
deriving DecidableEq

/-- The line that a terminal shows for a record. -/
def Record.line (r : Record) : String :=
  String.intercalate ", "
    ((r.severity.short ++ " " ++ r.message) ::
      r.fields.reverse.map fun (field, value) => field ++ ": " ++ value)

end Chip8
