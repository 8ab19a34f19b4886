import Reply.Toml.Number

namespace Reply

/-!
# TOML dates and times

A moment is a date, a time of day, or both with an optional offset.  Moments
carry no value: no setting is one.  A date must exist in the calendar and a
time on the clock, or the text is no moment.
-/

namespace Toml

/-- Take a number of a fixed count of digits. -/
def places? : Nat → Scan Nat
  | count, text =>
      let taken := text.take count
      if taken.length = count && taken.all isDigit then
        some (valueOf 10 taken, text.drop count)
      else
        none

/-- Take a number of two digits up to a limit. -/
def upTo? (limit : Nat) (text : List Char) : Option (Nat × List Char) :=
  (places? 2 text).filter fun scanned => scanned.1 ≤ limit

/-- Whether a year has a twenty-ninth of February. -/
def isLeap (year : Nat) : Bool :=
  year % 4 = 0 && (year % 100 ≠ 0 || year % 400 = 0)

/-- The number of days of a month. -/
def daysOf (year month : Nat) : Nat :=
  if month = 2 then
    if isLeap year then 29 else 28
  else if month = 4 || month = 6 || month = 9 || month = 11 then
    30
  else
    31

/-- The text after a date. -/
def afterDate? (text : List Char) : Option (List Char) := do
  let (year, text) ← places? 4 text
  let text ← expect? '-' text
  let (month, text) ← upTo? 12 text
  let text ← expect? '-' text
  let (day, text) ← upTo? (daysOf year month) text
  if 1 ≤ month && 1 ≤ day then some text else none

/-- The text after a fraction of a second, if there is one. -/
def afterFraction : List Char → List Char
  | '.' :: digit :: rest =>
      if isDigit digit then rest.dropWhile isDigit else '.' :: digit :: rest
  | text => text

/-- The text after a time of day; a minute may have a leap second. -/
def afterTime? (text : List Char) : Option (List Char) := do
  let (_, text) ← upTo? 23 text
  let text ← expect? ':' text
  let (_, text) ← upTo? 59 text
  let text ← expect? ':' text
  let (_, text) ← upTo? 60 text
  some (afterFraction text)

/-- The text after the hours and minutes of an offset. -/
def afterHours? (text : List Char) : Option (List Char) := do
  let (_, text) ← upTo? 23 text
  let text ← expect? ':' text
  let (_, text) ← upTo? 59 text
  some text

/-- The text after an offset, if there is one. -/
def afterOffset : List Char → List Char
  | 'Z' :: rest => rest
  | 'z' :: rest => rest
  | '+' :: rest => (afterHours? rest).getD ('+' :: rest)
  | '-' :: rest => (afterHours? rest).getD ('-' :: rest)
  | text => text

/-- The text after the mark between a date and its time. -/
def afterMark? : List Char → Option (List Char)
  | 'T' :: rest => some rest
  | 't' :: rest => some rest
  | ' ' :: rest => some rest
  | _ => none

/-- The text after a moment. -/
def afterMoment? (text : List Char) : Option (List Char) :=
  match afterDate? text with
  | some rest =>
      some
        ((((afterMark? rest).bind afterTime?).map afterOffset).getD rest)
  | none => afterTime? text

end Toml

end Reply
