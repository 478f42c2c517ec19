import DerivedQuery.Text.Digits

/-!
# Instants

Points in time as RFC 3339 writes them: a date, a time of day and an offset from UTC. Dates are those
of the Gregorian calendar, years have four digits, and the date and the time of day may be separated by
a letter `T` in either case or by a blank. The offset may be written with a minus sign (U+2212).

Of the digits of a fraction of a second nine count. The sixtieth second of a minute is a leap second:
it is part of the second before it, one second late.
-/

namespace DerivedQuery

/-- A point in time: whole seconds since the year zero in UTC, and nanoseconds beyond them. -/
structure Instant where
  seconds : Int
  nanoseconds : Nat
  deriving DecidableEq, Repr

namespace Instant

open Text (digitsValue)

/-- Earlier instants come first. -/
def order (a b : Instant) : Ordering :=
  (compare a.seconds b.seconds).then (compare a.nanoseconds b.nanoseconds)

/-! ## Calendar -/

/-- A year with 366 days. -/
def isLeap (year : Nat) : Bool := year % 4 == 0 && (year % 100 != 0 || year % 400 == 0)

/-- The lengths of the months of a year. -/
def monthLengths (year : Nat) : List Nat :=
  [31, if isLeap year then 29 else 28, 31, 30, 31, 30, 31, 31, 30, 31, 30, 31]

/-- Days from the year zero to the start of a year. -/
def daysBeforeYear (year : Nat) : Nat :=
  365 * year + (year + 3) / 4 - (year + 99) / 100 + (year + 399) / 400

/-- Days from the year zero to a date, if there is such a date. -/
def days? (year month day : Nat) : Option Nat := do
  let lengths := monthLengths year
  let length ← if month = 0 then none else lengths[month - 1]?
  if day = 0 ∨ length < day then none
  else some (daysBeforeYear year + (lengths.take (month - 1)).foldr (fun length days => length + days) 0 + (day - 1))

/-! ## Reading -/

/-- A number of exactly `count` digits, and the rest. -/
def number? (count : Nat) (text : List Char) : Option (Nat × List Char) :=
  let digits := text.take count
  if digits.length = count ∧ digits.all Char.isDigit then
    some (digitsValue digits, text.drop count)
  else none

/-- The rest behind an expected character. -/
def behind? (expected : Char) : List Char → Option (List Char)
  | c :: rest => if c = expected then some rest else none
  | [] => none

/-- The rest behind the character between date and time. -/
def behindDate? : List Char → Option (List Char)
  | c :: rest => if c = 'T' ∨ c = 't' ∨ c = ' ' then some rest else none
  | [] => none

/-- Nanoseconds of a fraction of a second, if there is one, and the rest. -/
def fraction? : List Char → Option (Nat × List Char)
  | '.' :: rest =>
    let digits := rest.takeWhile Char.isDigit
    if digits.isEmpty then none
    else
      let counted := digits.take 9
      some (digitsValue counted * Nat.pow 10 (9 - counted.length), rest.dropWhile Char.isDigit)
  | text => some (0, text)

/-- Hours and minutes of an offset in seconds, and the rest. -/
def offsetSize? (text : List Char) : Option (Nat × List Char) := do
  let (hours, text) ← number? 2 text
  let (minutes, text) ← number? 2 (← behind? ':' text)
  if hours < 24 ∧ minutes < 60 then some (hours * 3600 + minutes * 60, text) else none

/-- An offset from UTC in seconds, and the rest. -/
def offset? : List Char → Option (Int × List Char)
  | [] => none
  | c :: rest =>
    if c = 'Z' ∨ c = 'z' then some (0, rest)
    else if c = '+' then (offsetSize? rest).map fun (size, rest) => (size, rest)
    else if c = '-' ∨ c = '\u2212' then (offsetSize? rest).map fun (size, rest) => (-size, rest)
    else none

/-- The instant that a whole text stands for. -/
def ofChars? (text : List Char) : Option Instant := do
  let (year, text) ← number? 4 text
  let (month, text) ← number? 2 (← behind? '-' text)
  let (day, text) ← number? 2 (← behind? '-' text)
  let (hour, text) ← number? 2 (← behindDate? text)
  let (minute, text) ← number? 2 (← behind? ':' text)
  let (second, text) ← number? 2 (← behind? ':' text)
  let (nanoseconds, text) ← fraction? text
  let (offset, text) ← offset? text
  let days ← days? year month day
  if text.isEmpty ∧ hour < 24 ∧ minute < 60 ∧ second ≤ 60 then
    let late := if second = 60 then 1 else 0
    some {
      seconds := ((days * 24 + hour) * 60 + minute) * 60 + (second - late : Nat) - offset
      nanoseconds := nanoseconds + late * 1000000000 }
  else none

end Instant

end DerivedQuery
