import DerivedQuery.Command.Arguments
import DerivedQuery.Command.Config
import DerivedQuery.Engine.Basic
import DerivedQuery.Json.Printer
import DerivedQuery.Log.Line
import DerivedQuery.Text.Lines

/-!
# Running commands

A command loads the configuration, sets up an engine for the named entity and runs one call. It answers
with JSON objects, one a line; log lines and the text of a plan go to the error output.

Files are read through a function of any monad, so a command runs on real files as well as on a table of
texts.
-/

namespace DerivedQuery.Command

/-- What a command has written, and the severity from which events are logged. -/
structure Transcript where
  /-- Lines of the output, the last one first. -/
  output : List Json := []
  /-- Lines of the error output, the last one first. -/
  errors : List String := []
  minimum : Severity := .warn

namespace Transcript

/-- The lines of the output. -/
def answers (transcript : Transcript) : List String := transcript.output.reverse.map (·.compact)

/-- The text of the output. -/
def outputText (transcript : Transcript) : String := Text.ofLines transcript.answers

/-- The text of the error output. -/
def errorText (transcript : Transcript) : String := Text.ofLines transcript.errors.reverse

end Transcript

/-- Work of a command. -/
abbrev CommandM (m : Type → Type) := ExceptT CommandError (StateT Transcript m)

variable {m : Type → Type} [Monad m]

/-- Reads a file, or says why it cannot be read. -/
abbrev FileReader (m : Type → Type) := String → m (Except String String)

/-- Reads a file. -/
def readFile (read : FileReader m) (path : String) : CommandM m (Except String String) :=
  liftM (read path)

/-! ## Output -/

/-- What a computation without effects gives. -/
def ofExcept {α : Type} : Except CommandError α → CommandM m α
  | .ok a => pure a
  | .error error => throw error

/-- Writes a line of output. -/
def respond (line : Json) : CommandM m Unit :=
  modify fun t => { t with output := line :: t.output }

/-- Writes lines to the error output. -/
def report (lines : List String) : CommandM m Unit :=
  modify fun t => { t with errors := lines.reverse ++ t.errors }

/-- Logs events. -/
def log (entries : List LogEntry) : CommandM m Unit := do
  let t ← get
  report (entries.flatMap (Log.writeEntry t.minimum))

/-- The answer of a command that has done its work. -/
def success (data : Json) : Json := .ofMembers [("status", .string "ok"), ("data", data)]

/-- The answer of a command that fails. -/
def failure (error : CommandError) : Json :=
  .ofMembers [("status", .string "error"), ("code", .string error.code),
    ("message", .string error.message)]

/-! ## Set-up -/

/-- Loads the configuration file and starts to log at its level. -/
def load (read : FileReader m) (path : String) : CommandM m Config := do
  match ← readFile read path with
  | .error reason => throw (.configUnreadable reason)
  | .ok text =>
    let config ← ofExcept (Config.ofText text)
    let minimum ← ofExcept (config.engine.severity.mapError .settings)
    modify fun t => { t with minimum }
    log [⟨.configLoaded, [("entities", toString config.entities.length), ("path", path)]⟩]
    return config

/-- The documents to start with, by collection. -/
def readSeed (read : FileReader m) (configPath : String) (config : Config) :
    CommandM m (List (String × List Document)) := do
  match config.seedFile with
  | none => return []
  | some file =>
    let path := Path.join (Path.directory configPath) file
    match ← readFile read path with
    | .error reason => throw (.seedUnreadable path reason)
    | .ok text =>
      match Config.seed? text with
      | none => throw .seedMalformed
      | some seed => return seed

/-- The store that a configuration describes, with the documents to start with. -/
def seededStore (read : FileReader m) (configPath : String) (config : Config) :
    CommandM m MemoryStore := do
  let store ← ofExcept config.emptyStore
  let seed ← readSeed read configPath config
  ofExcept (Config.fillAll store seed)

/-- The arguments in a JSON text. -/
def readArguments (text : String) : Except CommandError (List Json) :=
  match Json.parse? text with
  | some (.array values) => .ok values
  | some _ => .error .argumentsNotArray
  | none => .error .argumentsMalformed

/-- The page that the options ask for. Without a page size, a continuation goes on with pages of the
default size. -/
def readPage (line : CommandLine) (config : EngineConfig) :
    Except CommandError (Option PageRequest) := do
  if line.pageSize.isNone && line.continuation.isNone then .ok none
  else
    let request ← (PageRequest.of (line.pageSize.getD config.defaultPageSize)).mapError .failed
    match line.continuation with
    | none => .ok (some request)
    | some text =>
      match ContinuationToken.ofBase64? text with
      | some token => .ok (some { request with continuation := some token })
      | none => .error .continuationMalformed

/-- The call that the options ask for. -/
def buildCall (line : CommandLine) (config : EngineConfig) : Except CommandError Call := do
  let arguments ← readArguments line.arguments
  let page ← readPage line config
  .ok { arguments, page }

/-- Runs the work of an engine on a fresh session and logs its events. -/
def runEngine {σ α : Type} (store : σ) (work : EngineM σ α) :
    CommandM m (Except QueryError α) := do
  let (outcome, session) := work.runOn { store }
  log session.journal.reverse
  return outcome

/-! ## Commands -/

/-- The JSON form of an outcome. -/
def outcomeJson : Outcome Document → Json
  | .found page => .ofMembers [("items", .array page.items), ("page_size", .nat page.size),
      ("continuation", page.next.elim .null (.string ·.toBase64))]
  | .exists answer => .ofMembers [("exists", .bool answer)]
  | .count number => .ofMembers [("count", .nat number)]
  | .deleted number => .ofMembers [("deleted", .nat number)]

/-- The plan of the call that the options describe. -/
def planOf (read : FileReader m) (line : CommandLine) : CommandM m ExplainPlan := do
  let config ← load read line.config
  let metadata ← ofExcept (config.entity line.entity)
  let call ← ofExcept (buildCall line config.engine)
  let engine : Engine MemoryStore := { store := memoryStore, metadata, config := config.engine }
  ofExcept ((← runEngine {} (engine.explain line.method call)).mapError .failed)

/-- Shows what a call would do. A rejection is shown like any plan, and is an error beyond that. -/
def explain (read : FileReader m) (line : CommandLine) : CommandM m Unit := do
  let plan ← planOf read line
  report plan.lines
  respond (success plan.toJson)
  match plan with
  | .accepted .. => return ()
  | .rejected error => throw (.rejected error)

/-- The outcome of the call that the options describe. -/
def outcomeOf (read : FileReader m) (line : CommandLine) : CommandM m (Outcome Document) := do
  let config ← load read line.config
  let metadata ← ofExcept (config.entity line.entity)
  let store ← seededStore read line.config config
  let call ← ofExcept (buildCall line config.engine)
  let engine : Engine MemoryStore := { store := memoryStore, metadata, config := config.engine }
  ofExcept ((← runEngine store (engine.invoke line.method call)).mapError .failed)

/-- Runs a call and shows its outcome. -/
def query (read : FileReader m) (line : CommandLine) : CommandM m Unit := do
  respond (success (outcomeJson (← outcomeOf read line)))

/-- Runs a command. An error is an answer, too. -/
def run (read : FileReader m) (line : CommandLine) : CommandM m Unit :=
  tryCatch
    (match line.kind with
      | .explain => explain read line
      | .query => query read line)
    fun error => do
      respond (failure error)
      throw error

end DerivedQuery.Command
