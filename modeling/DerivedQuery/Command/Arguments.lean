import DerivedQuery.Number.Width
import DerivedQuery.Text.Digits

/-!
# Command lines

A command line is the name of a command and options in any order. The value of an option stands behind
an equals sign or is the next argument; in the second form it may not look like an option. No option may
be given twice.
-/

namespace DerivedQuery.Command

/-- What is to be done. -/
inductive Kind where
  /-- Show what a call would ask the store for. -/
  | explain
  /-- Run a call. -/
  | query
  deriving DecidableEq, Repr

/-- A command with its options. -/
structure CommandLine where
  kind : Kind
  /-- Path of the configuration file. -/
  config : String := "./docrepo.json"
  entity : String
  method : String
  /-- JSON text of the array of arguments. -/
  arguments : String := "[]"
  pageSize : Option Int := none
  /-- Base64 text of a continuation token. -/
  continuation : Option String := none
  deriving DecidableEq, Repr

/-- The names of the options. -/
def optionNames : List String :=
  ["config", "entity", "method", "args", "page-size", "continuation"]

/-- Splits an option at its first equals sign into name and value. -/
def splitOption (option : List Char) : String × Option String :=
  let name := String.ofList (option.takeWhile (· ≠ '='))
  match option.dropWhile (· ≠ '=') with
  | [] => (name, none)
  | _ :: value => (name, some (String.ofList value))

/-- An argument that cannot be a value by itself: it starts with a dash, and is more than that. -/
def looksLikeOption (argument : String) : Bool :=
  match argument.toList with
  | '-' :: _ :: _ => true
  | _ => false

/-- The options of a command line with their values. Two dashes may stand at its end. -/
def readOptions? : List String → Option (List (String × String))
  | [] => some []
  | argument :: rest =>
    match argument.toList with
    | '-' :: '-' :: option =>
      if option.isEmpty then if rest.isEmpty then some [] else none
      else
        match splitOption option, rest with
        | (name, some value), rest => (readOptions? rest).map ((name, value) :: ·)
        | (name, none), value :: rest =>
          if looksLikeOption value then none else (readOptions? rest).map ((name, value) :: ·)
        | (_, none), [] => none
    | _ => none

/-- A signed 64-bit integer, perhaps with a sign. -/
def int64? (text : String) : Option Int :=
  let (negative, digits) := match text.toList with
    | '-' :: digits => (true, digits)
    | '+' :: digits => (false, digits)
    | digits => (false, digits)
  if digits.isEmpty || !digits.all Char.isDigit then none
  else
    let size := Text.digitsValue digits
    let value : Int := if negative then -(size : Int) else size
    if fitsInt64 value then some value else none

/-- The command with some options. -/
def ofOptions? (kind : Kind) (options : List (String × String)) : Option CommandLine := do
  let names := options.map (·.1)
  if !names.all optionNames.contains ∨ !decide names.Nodup then none
  else
    let config := (options.lookup "config").getD "./docrepo.json"
    let pageSize ← match options.lookup "page-size" with
      | none => some none
      | some text => (int64? text).map some
    if config.isEmpty then none
    else some {
      kind, config, pageSize
      entity := ← options.lookup "entity"
      method := ← options.lookup "method"
      arguments := (options.lookup "args").getD "[]"
      continuation := options.lookup "continuation" }

/-- Reads a command line, without the name of the program. -/
def parse? : List String → Option CommandLine
  | "explain" :: rest => (readOptions? rest).bind (ofOptions? .explain)
  | "query" :: rest => (readOptions? rest).bind (ofOptions? .query)
  | _ => none

end DerivedQuery.Command
