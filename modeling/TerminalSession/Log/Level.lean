import TerminalSession.Decimal

/-!
# Log levels

How much a log line matters. A level has a name and a number, the greater the more detail; users
write either, a name in upper or lower case. A *threshold* is the most detailed level that is let
through, or none if nothing is.
-/

namespace TerminalSession.Log

set_option autoImplicit false

/-- A log level, from the gravest to the most detailed. -/
inductive Level where
  | error
  | warn
  | info
  | debug
  | trace
  deriving DecidableEq, Repr

namespace Level

/-- All levels, in order. -/
def all : List Level := [error, warn, info, debug, trace]

/-- The number of a level. -/
def rank : Level → Nat
  | error => 1
  | warn => 2
  | info => 3
  | debug => 4
  | trace => 5

/-- The name of a level. -/
def name : Level → String
  | error => "error"
  | warn => "warn"
  | info => "info"
  | debug => "debug"
  | trace => "trace"

/-- The name of a level as it stands in a log. -/
def label : Level → String
  | error => "ERROR"
  | warn => "WARN"
  | info => "INFO"
  | debug => "DEBUG"
  | trace => "TRACE"

end Level

/-- A letter of ASCII in lower case. -/
def lowerLetter (c : Char) : Char :=
  if 'A' ≤ c && c ≤ 'Z' then Char.ofNat (c.toNat + 0x20) else c

/-- The number written by a text: digits, perhaps after a plus sign. -/
def number? : List Char → Option Nat
  | '+' :: digits => Decimal.read? 10 digits
  | digits => Decimal.read? 10 digits

/-- Whether a text is a name, upper and lower case aside. -/
def isNamed (name : String) (text : List Char) : Bool := text.map lowerLetter = name.toList

/-- The level that a text stands for. -/
def Level.ofText? (text : List Char) : Option Level :=
  match number? text with
  | some n => all.find? (·.rank = n)
  | none => all.find? fun level => isNamed level.name text

/-- The most detailed level that is let through. -/
abbrev Threshold := Option Level

namespace Threshold

/-- The number of a threshold; zero lets nothing through. -/
def rank : Threshold → Nat
  | some level => level.rank
  | none => 0

/-- Whether a threshold lets a level through. -/
def admits (t : Threshold) (level : Level) : Bool := level.rank ≤ t.rank

/-- The threshold that a text stands for. -/
def ofText? (text : List Char) : Option Threshold :=
  if number? text = some 0 || isNamed "off" text then some none
  else (Level.ofText? text).map some

end Threshold

end TerminalSession.Log
