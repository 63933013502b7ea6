/-!
# Decimal numerals

Natural numbers in base ten, and their digits in other bases up to sixteen. Written numerals have no
leading zeros; read ones may have any number of them, and each reader decides what else it allows
before a numeral.
-/

namespace TerminalSession.Decimal

set_option autoImplicit false

/-- The character of a digit below sixteen, letters in lower case. -/
def digitChar (d : Nat) : Char :=
  if d < 10 then Char.ofNat (d + 0x30) else Char.ofNat (d - 10 + 0x61)

/-- The value of a digit in a base of at most sixteen; letters of either case count. -/
def digitValue? (base : Nat) (c : Char) : Option Nat :=
  let value :=
    if '0' ≤ c && c ≤ '9' then c.toNat - 0x30
    else if 'a' ≤ c && c ≤ 'f' then c.toNat - 0x61 + 10
    else if 'A' ≤ c && c ≤ 'F' then c.toNat - 0x41 + 10
    else base
  if value < base then some value else none

/-- A decimal digit of ASCII. -/
def isDigit (c : Char) : Bool := '0' ≤ c && c ≤ '9'

/-- The numeral of a number. -/
def write (n : Nat) : List Char :=
  if n < 10 then [digitChar n] else write (n / 10) ++ [digitChar (n % 10)]

/-- Goes on reading digits after a number already read. -/
def readFrom? (base : Nat) : Nat → List Char → Option Nat
  | n, [] => some n
  | n, c :: rest => do readFrom? base (n * base + (← digitValue? base c)) rest

/-- The number that one or more digits stand for. -/
def read? (base : Nat) : List Char → Option Nat
  | [] => none
  | digits => readFrom? base 0 digits

/-- The numeral of an integer, with a minus sign if it is negative. -/
def writeInt : Int → List Char
  | .ofNat n => write n
  | .negSucc n => '-' :: write (n + 1)

/-- The number that natural numbers of 64 bits stay below. -/
def nat64Limit : Nat := 0x10000000000000000

/-- Whether an integer fits 64 bits with a sign. -/
def isInt64 (n : Int) : Bool := -0x8000000000000000 ≤ n && n < 0x8000000000000000

end TerminalSession.Decimal
