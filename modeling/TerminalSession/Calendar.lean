import TerminalSession.Decimal

/-!
# Dates

The date and time of day of an instant given in milliseconds since the beginning of 1970, in
universal time. Days are counted in eras of four hundred years that begin with the first of March of
a year divisible by four hundred, as all eras have as many days and a leap day comes last in its
year.
-/

namespace TerminalSession.Calendar

set_option autoImplicit false

/-- A date. -/
structure Date where
  year : Nat
  month : Nat
  day : Nat
  deriving DecidableEq, Repr

/-- How many days an era has. -/
def daysOfEra : Nat := 146097

/-- How many days lie between the beginning of the first era and that of 1970. -/
def daysBefore1970 : Nat := 719468

/-- The year of a day in its era, from the first of March. Of the days before, those that come every
four years, every hundred, and in the end are left out of the count. -/
def yearOfEra (day : Nat) : Nat :=
  (day - day / 1460 + day / 36524 - day / (daysOfEra - 1)) / 365

/-- The day in its year of a day in its era, from the first of March. -/
def dayOfYear (day : Nat) : Nat :=
  let year := yearOfEra day
  day - (365 * year + year / 4 - year / 100)

/-- The date of a day counted from the beginning of 1970. Months from March on have in turn
thirty-one and thirty days, but for two pairs of long ones, which comes to 153 days in five months.
-/
def dateOfDay (days : Nat) : Date :=
  let day := (days + daysBefore1970) % daysOfEra
  let inYear := dayOfYear day
  let month := (5 * inYear + 2) / 153
  let year := (days + daysBefore1970) / daysOfEra * 400 + yearOfEra day
  { year := if month < 10 then year else year + 1
    month := if month < 10 then month + 3 else month - 9
    day := inYear - (153 * month + 2) / 5 + 1 }

/-- A numeral with zeros in front of it, to so many digits. -/
def padded (digits n : Nat) : List Char :=
  let numeral := Decimal.write n
  List.replicate (digits - numeral.length) '0' ++ numeral

/-- The text of an instant in milliseconds, from the year to the millisecond. -/
def write (ms : Nat) : List Char :=
  let date := dateOfDay (ms / 86400000)
  let inDay := ms % 86400000
  padded 4 date.year ++ '-' :: padded 2 date.month ++ '-' :: padded 2 date.day
    ++ 'T' :: padded 2 (inDay / 3600000) ++ ':' :: padded 2 (inDay / 60000 % 60)
    ++ ':' :: padded 2 (inDay / 1000 % 60) ++ '.' :: padded 3 (inDay % 1000) ++ ['Z']

end TerminalSession.Calendar
