import TerminalSession.Toml

/-!
# TOML numbers

Integers in four bases, and numbers with a fraction or an exponent. Digits may be grouped by single
underscores. Integers have to fit 64 bits with a sign, and a number with a fraction must not be so
large that binary floating point has no room for it.
-/

namespace TerminalSession.Toml

set_option autoImplicit false

/-- More digits after a first one, each perhaps after an underscore; underscores are left out. -/
def readMore? (base : Nat) : Reader (List Char)
  | [] => some ([], [])
  | '_' :: rest =>
    match rest with
    | c :: rest =>
      if (Decimal.digitValue? base c).isSome then
        (readMore? base rest).map fun r => (c :: r.1, r.2)
      else none
    | [] => none
  | c :: rest =>
    if (Decimal.digitValue? base c).isSome then (readMore? base rest).map fun r => (c :: r.1, r.2)
    else some ([], c :: rest)

/-- One or more digits, perhaps grouped. -/
def readDigits? (base : Nat) : Reader (List Char)
  | [] => none
  | c :: rest =>
    if (Decimal.digitValue? base c).isSome then (readMore? base rest).map fun r => (c :: r.1, r.2)
    else none

/-- A plus or minus sign, if there is one. -/
def readSign : List Char → List Char × List Char
  | [] => ([], [])
  | c :: rest => if c = '+' || c = '-' then ([c], rest) else ([], c :: rest)

/-- The digits of a decimal integer: a zero stands alone. -/
def readWhole? : Reader (List Char)
  | '0' :: rest => some (['0'], rest)
  | text => readDigits? 10 text

/-! ## Integers -/

/-- The integer that digits and a sign stand for, if it fits. -/
def integer? (base : Nat) (sign digits : List Char) : Option Int := do
  let n ← Decimal.read? base digits
  let value : Int := if sign = ['-'] then -n else n
  if Decimal.isInt64 value then some value else none

/-- An integer in a base other than ten, given its digits. -/
def readBase? (base : Nat) : Reader Toml := fun text => do
  let (digits, rest) ← readDigits? base text
  some (.integer (← integer? base [] digits), rest)

/-- An integer. -/
def readInteger? : Reader Toml
  | '0' :: 'x' :: rest => readBase? 16 rest
  | '0' :: 'o' :: rest => readBase? 8 rest
  | '0' :: 'b' :: rest => readBase? 2 rest
  | text => do
    let (sign, text) := readSign text
    let (digits, rest) ← readWhole? text
    some (.integer (← integer? 10 sign digits), rest)

/-! ## Numbers with a fraction or an exponent -/

/-- The digits after a point, if there is one. -/
def readFraction? : Reader (Option (List Char))
  | '.' :: rest => (readDigits? 10 rest).map fun r => (some r.1, r.2)
  | text => some (none, text)

/-- The sign and digits of an exponent, if there is one. -/
def readExponent? : Reader (Option (List Char × List Char))
  | [] => some (none, [])
  | c :: rest =>
    if c = 'e' || c = 'E' then
      let (sign, rest) := readSign rest
      (readDigits? 10 rest).map fun r => (some (sign, r.1), r.2)
    else some (none, c :: rest)

/-- The least number that rounds beyond the largest double. -/
def beyondDouble : Nat := Nat.pow 2 1024 - Nat.pow 2 970

/-- Whether `m · 10^e` rounds beyond the largest double. Its number of digits decides unless that is
close to the number of digits at which doubles end. -/
def isBeyondDouble (m : Nat) (e : Int) : Bool :=
  let size : Int := (Decimal.write m).length + e
  if m = 0 || size < 300 then false
  else if 320 < size then true
  else if 0 ≤ e then beyondDouble ≤ m * Nat.pow 10 e.toNat
  else beyondDouble * Nat.pow 10 (-e).toNat ≤ m

/-- Whether a positive number is too large. -/
def isTooLarge (whole fraction exponentSign exponent : List Char) : Bool :=
  let m := (Decimal.read? 10 (whole ++ fraction)).getD 0
  let e : Int := (Decimal.read? 10 exponent).getD 0
  isBeyondDouble m ((if exponentSign = ['-'] then -e else e) - fraction.length)

/-- A number with a fraction, an exponent or both. -/
def readFloat? : Reader Toml := fun text => do
  let (sign, rest) := readSign text
  let (whole, rest) ← readWhole? rest
  let (fraction, rest) ← readFraction? rest
  let (exponent, rest) ← readExponent? rest
  if fraction.isNone && exponent.isNone then none
  else
    let (exponentSign, exponentDigits) := exponent.getD ([], [])
    if sign ≠ ['-'] && isTooLarge whole (fraction.getD []) exponentSign exponentDigits then none
    else some (.float (text.take (text.length - rest.length)), rest)

/-- Infinity or not a number, perhaps with a sign. -/
def readSpecial? : Reader Toml := fun text => do
  let rest := (readSign text).2
  if "inf".toList.isPrefixOf rest || "nan".toList.isPrefixOf rest then
    some (.float (text.take (text.length - rest.length + 3)), rest.drop 3)
  else none

end TerminalSession.Toml
