import DerivedQuery.Error

/-!
# Errors of commands

Why a command fails, by cause.
-/

namespace DerivedQuery

/-- Why a command fails. -/
inductive CommandError where
  | configUnreadable (reason : String)
  | configMalformed
  /-- The engine's settings make no sense. -/
  | settings (error : QueryError)
  | duplicateEntity (name : String)
  | invalidEntity (name : String) (error : QueryError)
  | seedUnreadable (path reason : String)
  | seedMalformed
  | seedRefused (collection : String) (error : StoreError)
  | unknownEntity (name : String)
  | argumentsNotArray
  | argumentsMalformed
  | continuationMalformed
  /-- The call failed. -/
  | failed (error : QueryError)
  /-- The plan of the call is a rejection. -/
  | rejected (error : QueryError)
  deriving DecidableEq, Repr

namespace CommandError

/-- Stable code of an error. -/
def code : CommandError → String
  | configUnreadable _ | configMalformed | settings _ | duplicateEntity _ | invalidEntity ..
  | seedUnreadable .. | seedMalformed | seedRefused .. => "DOCREPO_CLI_CONFIG_ERROR"
  | unknownEntity _ => "DOCREPO_CLI_UNKNOWN_ENTITY"
  | argumentsNotArray | argumentsMalformed | continuationMalformed => "DOCREPO_CLI_USAGE_ERROR"
  | failed _ | rejected _ => "DOCREPO_CLI_QUERY_FAILED"

/-- Text of an error. -/
def message : CommandError → String
  | configUnreadable reason => "Failed to read config: " ++ reason
  | configMalformed => "Invalid config JSON: not a configuration"
  | settings error => error.message
  | duplicateEntity name => "Entity '" ++ name ++ "' is declared twice"
  | invalidEntity name error => "Entity '" ++ name ++ "': " ++ error.message
  | seedUnreadable path reason => "Failed to read seed file " ++ path ++ ": " ++ reason
  | seedMalformed => "Invalid seed JSON: not lists of documents by collection"
  | seedRefused collection error =>
    "Seed document in '" ++ collection ++ "': " ++ error.message
  | unknownEntity name => "Entity '" ++ name ++ "' is not declared in the configuration"
  | argumentsNotArray => "--args must be a JSON array"
  | argumentsMalformed => "--args is not valid JSON: not a JSON text"
  | continuationMalformed => "--continuation is not base64: not a Base64 text"
  | failed error => error.code ++ ": " ++ error.message
  | rejected error => error.message

/-- Code and text of an error. -/
def display (error : CommandError) : String := error.code ++ ": " ++ error.message

end CommandError

end DerivedQuery
