import DerivedQuery.Error
import DerivedQuery.Json.Record
import DerivedQuery.Log.Severity

/-!
# Engine configuration

The page size of calls that ask for none, and the level from which events are logged. A configuration
can be read whatever its values; `EngineConfig.validate` says whether they make sense.
-/

namespace DerivedQuery

open Json (Form)

/-- Settings of an engine. -/
structure EngineConfig where
  defaultPageSize : Nat := 100
  logLevel : String := "warn"
  deriving DecidableEq, Repr, Inhabited

namespace EngineConfig

/-- The names of the fields in written configurations. -/
def fieldNames : List String := ["default_page_size", "log_level"]

/-- The configuration with the given fields. A page size has 32 bits. -/
def ofFields? : List (Option Form) → Option EngineConfig
  | [defaultPageSize, logLevel] => do
    some {
      defaultPageSize := ← defaultPageSize.elim (some 100) (·.natBelow? UInt32.size)
      logLevel := ← logLevel.elim (some "warn") (·.string?) }
  | _ => none

/-- The configuration that a record stands for. -/
def ofForm? (form : Form) : Option EngineConfig := do ofFields? (← form.record? fieldNames)

/-- The severity that the level names. -/
def severity (config : EngineConfig) : Except QueryError Severity :=
  match Severity.ofLevel? config.logLevel with
  | some severity => .ok severity
  | none => .error (.invalidArgument "log_level" (.unknownLevel config.logLevel))

/-- Checks the page size, then the level. -/
def validate (config : EngineConfig) : Except QueryError Unit := do
  if config.defaultPageSize = 0 then .error (.invalidPageSize 0)
  else
    let _ ← config.severity
    .ok ()

end EngineConfig

end DerivedQuery
