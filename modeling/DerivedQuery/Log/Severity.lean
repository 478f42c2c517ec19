import DerivedQuery.Text.Blank

/-!
# Severities

How serious a logged event is. A log is written from some severity upwards.
-/

namespace DerivedQuery

/-- How serious an event is. -/
inductive Severity where
  | trace
  | info
  | warn
  | error
  | fatal
  deriving DecidableEq, Repr

namespace Severity

/-- All severities, the least serious first. -/
def all : List Severity := [trace, info, warn, error, fatal]

/-- Position among the severities. -/
def rank : Severity → Nat
  | trace => 0
  | info => 1
  | warn => 2
  | error => 3
  | fatal => 4

/-- The name of a severity. -/
def name : Severity → String
  | trace => "TRACE"
  | info => "INFO"
  | warn => "WARN"
  | error => "ERROR"
  | fatal => "FATAL"

/-- Events of the severity are written by a log that starts at `minimum`. -/
def isEnabled (minimum severity : Severity) : Bool := minimum.rank ≤ severity.rank

/-- The severity that a configured level names. Case and surrounding blanks do not matter. -/
def ofLevel? (level : String) : Option Severity :=
  match String.ofList ((Text.trim level.toList).map Char.toLower) with
  | "trace" | "debug" => some trace
  | "info" => some info
  | "warn" | "warning" => some warn
  | "error" => some error
  | "fatal" => some fatal
  | _ => none

end Severity

end DerivedQuery
