import DerivedQuery.Text.Base64
import DerivedQuery.Text.Blank

/-!
# Continuation tokens

A store marks where a page ends with a token, and takes the token back to go on from there. Tokens are
opaque bytes: they are kept and handed back, never looked into. Outside the program they travel as
Base64.
-/

namespace DerivedQuery

/-- A mark that a store has issued. -/
structure ContinuationToken where
  bytes : List UInt8
  deriving DecidableEq, Repr

namespace ContinuationToken

/-- The Base64 text of a token. -/
def toBase64 (token : ContinuationToken) : String := String.ofList (Text.Base64.encode token.bytes)

/-- The token of a Base64 text; blanks around the text do not matter. -/
def ofBase64? (text : String) : Option ContinuationToken :=
  (Text.Base64.decode? (Text.trim text.toList)).map (⟨·⟩)

/-- A text about a token that does not show its bytes. -/
def summary (token : ContinuationToken) : String :=
  "ContinuationToken(" ++ toString token.bytes.length ++ " bytes)"

end ContinuationToken

end DerivedQuery
