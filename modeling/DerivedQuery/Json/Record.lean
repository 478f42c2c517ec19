import DerivedQuery.Json.Form

/-!
# Reading records

A record is written as an object with one member for each field, or as an array of the fields in order.
Members with other names are ignored, whatever their values; a field may not be written twice. Whether
a field may be left out is for the reader of the record to say.
-/

namespace DerivedQuery.Json.Form

/-- The members under a name. -/
def membersNamed (name : String) (members : List (Option String × Form)) : List Form :=
  members.filterMap fun member => if member.1 = some name then some member.2 else none

/-- The field under a name, if it is not written twice. -/
def field? (members : List (Option String × Form)) (name : String) : Option (Option Form) :=
  match membersNamed name members with
  | [] => some none
  | [form] => some (some form)
  | _ => none

/-- The fields with the given names, each of which may be missing. -/
def record? (names : List String) : Form → Option (List (Option Form))
  | object members => if members.all (·.1.isSome) then names.mapM (field? members) else none
  | array elements =>
    if elements.length ≤ names.length then
      some (elements.map some ++ List.replicate (names.length - elements.length) none)
    else none
  | _ => none

/-- A string. -/
def string? : Form → Option String
  | string s => s
  | _ => none

/-- A string, or nothing for `null`. -/
def nullableString? : Form → Option (Option String)
  | null => some none
  | form => form.string?.map some

/-- A natural number below a bound. -/
def natBelow? (bound : Nat) : Form → Option Nat
  | number (some (.integer i)) => if 0 ≤ i ∧ i < bound then some i.toNat else none
  | _ => none

/-- The named members of an object, of which the last one under each name counts. -/
def map? {α : Type} (read? : Form → Option α) : Form → Option (List (String × α))
  | object members => do
    let entries ← members.mapM fun (name, form) => do some (← name, ← read? form)
    some (Entries.ofList entries)
  | _ => none

/-- The elements of an array. -/
def list? {α : Type} (read? : Form → Option α) : Form → Option (List α)
  | array elements => elements.mapM read?
  | _ => none

end DerivedQuery.Json.Form
