/-!
# Parts of texts

Whether a text has another one in it.
-/

namespace DerivedQuery.Text

/-- The part occurs somewhere in the text. -/
def hasInfix (part : List Char) : List Char → Bool
  | [] => part.isEmpty
  | c :: rest => part.isPrefixOf (c :: rest) || hasInfix part rest

theorem hasInfix_iff {part text : List Char} : hasInfix part text ↔ part <:+: text := by
  induction text with
  | nil => rw [hasInfix, List.isEmpty_iff, List.infix_nil]
  | cons c text ih =>
    rw [hasInfix, Bool.or_eq_true, ih, List.isPrefixOf_iff_prefix, List.infix_cons_iff]

end DerivedQuery.Text
