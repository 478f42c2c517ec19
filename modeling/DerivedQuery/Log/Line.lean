import DerivedQuery.Log.Event
import DerivedQuery.Text.Uuid

/-!
# Log lines

A logged event is one line: a JSON object with the event, the severity and the details in order of their
names, all of them strings. Quotes, backslashes and control characters are escaped, so no detail can end
its string or the line.
-/

namespace DerivedQuery.Log

/-- A control character (general category `Cc`). -/
def isControl (c : Char) : Bool := c.toNat < 0x20 || (0x7F ≤ c.toNat && c.toNat ≤ 0x9F)

/-- A character inside a string of a log line. -/
def escapeChar (c : Char) : List Char :=
  if c = '"' then ['\\', '"']
  else if c = '\\' then ['\\', '\\']
  else if c = '\n' then ['\\', 'n']
  else if c = '\r' then ['\\', 'r']
  else if c = '\t' then ['\\', 't']
  else if isControl c then '\\' :: 'u' :: Text.Uuid.hexDigits 4 c.toNat
  else [c]

/-- A string of a log line. -/
def quote (text : String) : List Char := '"' :: text.toList.flatMap escapeChar ++ ['"']

/-- A member of a log line. -/
def member (name value : String) : List Char := quote name ++ ':' :: quote value

/-- The details in order of their names; details of one name keep their order. -/
def sortFields (fields : List (String × String)) : List (String × String) :=
  fields.mergeSort fun a b => a.1 ≤ b.1

/-- The characters of a log line, without its end. -/
def chars (severity : Severity) (event : String) (fields : List (String × String)) : List Char :=
  '\x7b' :: member "event" event ++ ',' :: member "severity" severity.name ++
    (sortFields fields).flatMap (fun field => ',' :: member field.1 field.2) ++ ['\x7d']

/-- A log line, without its end. -/
def line (severity : Severity) (event : String) (fields : List (String × String)) : String :=
  String.ofList (chars severity event fields)

/-- What a log that starts at `minimum` writes for an event: one line or none. -/
def write (minimum severity : Severity) (event : String) (fields : List (String × String)) :
    List String :=
  if minimum.isEnabled severity then [line severity event fields] else []

/-- What a log writes for an entry. -/
def writeEntry (minimum : Severity) (entry : LogEntry) : List String :=
  write minimum entry.event.severity entry.event.name entry.fields

end DerivedQuery.Log
