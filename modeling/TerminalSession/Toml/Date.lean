import TerminalSession.Toml

/-!
# TOML dates and times

A date, a time, or a date with a time and perhaps an offset. Days have to exist in their month.
-/

namespace TerminalSession.Toml

set_option autoImplicit false

/-- A number of so many digits, within bounds. -/
def readFixed? (digits low high : Nat) : Reader Nat := fun text => do
  let front := text.take digits
  if front.length < digits then none
  else
    let n ← Decimal.read? 10 front
    if low ≤ n && n ≤ high then some (n, text.drop digits) else none

/-- The text after a character, if it is there. -/
def after? (c : Char) : List Char → Option (List Char)
  | d :: rest => if d = c then some rest else none
  | [] => none

/-- How many days a month has. -/
def daysIn (year month : Nat) : Nat :=
  if month = 2 then
    if year % 4 = 0 && (year % 100 ≠ 0 || year % 400 = 0) then 29 else 28
  else if [4, 6, 9, 11].contains month then 30
  else 31

/-- The text after a date. -/
def afterDate? (text : List Char) : Option (List Char) := do
  let (year, rest) ← readFixed? 4 0 9999 text
  let (month, rest) ← readFixed? 2 1 12 (← after? '-' rest)
  let (_, rest) ← readFixed? 2 1 (daysIn year month) (← after? '-' rest)
  some rest

/-- The text after a fraction of a second, if there is one. -/
def skipFraction : List Char → List Char
  | '.' :: c :: rest =>
    if Decimal.isDigit c then rest.dropWhile Decimal.isDigit else '.' :: c :: rest
  | text => text

/-- The text after a time of day. A minute may have a leap second. -/
def afterTime? (text : List Char) : Option (List Char) := do
  let (_, rest) ← readFixed? 2 0 23 text
  let (_, rest) ← readFixed? 2 0 59 (← after? ':' rest)
  let (_, rest) ← readFixed? 2 0 60 (← after? ':' rest)
  some (skipFraction rest)

/-- The text after hours and minutes. -/
def afterHours? (text : List Char) : Option (List Char) := do
  let (_, rest) ← readFixed? 2 0 23 text
  let (_, rest) ← readFixed? 2 0 59 (← after? ':' rest)
  some rest

/-- The text after an offset from universal time, if there is one. -/
def skipOffset : List Char → List Char
  | [] => []
  | c :: rest =>
    if c = 'Z' || c = 'z' then rest
    else if c = '+' || c = '-' then (afterHours? rest).getD (c :: rest)
    else c :: rest

/-- The text after the time that belongs to a date, if there is one. -/
def skipTime : List Char → List Char
  | [] => []
  | c :: rest =>
    if c = 'T' || c = 't' || c = ' ' then
      match afterTime? rest with
      | some rest => skipOffset rest
      | none => c :: rest
    else c :: rest

/-- A date, a time, or both. -/
def readDate? : Reader Toml := fun text => do
  let rest ← match afterDate? text with
    | some rest => some (skipTime rest)
    | none => afterTime? text
  some (.date (text.take (text.length - rest.length)), rest)

end TerminalSession.Toml
