import TerminalSession.Decimal
import TerminalSession.Text.Blank

/-!
# Symbols of patterns

The smallest parts of a pattern for texts: a character, any character, a kind of character, a place
between characters. Most stand for themselves; a backslash begins all others.

A pattern is read in *modes*, which it may set itself. It is matched against text, so no symbol may
stand for a byte that is part of a character; and whether a place is the edge of a word is decided
only among the letters of ASCII. `Symbol.isAllowed` and `Symbol.isMember` are these rules.
-/

namespace TerminalSession.Log.Pattern

set_option autoImplicit false

/-- How a pattern is read from some place on. -/
structure Modes where
  /-- Symbols stand for characters; otherwise for bytes. -/
  unicode : Bool := true
  /-- Blanks are skipped, and so is the rest of a line from a number sign on. -/
  spaced : Bool := false
  deriving DecidableEq, Repr

/-- The text without the blanks and comments it begins with; the flag tells whether it begins inside
a comment. -/
def skipBlanks : (comment : Bool) → List Char → List Char
  | _, [] => []
  | true, c :: rest => skipBlanks (c ≠ '\n') rest
  | false, c :: rest =>
    if Text.isBlank c then skipBlanks false rest
    else if c = '#' then skipBlanks true rest
    else c :: rest

/-- The text from the next character that counts. -/
def Modes.skip (modes : Modes) (text : List Char) : List Char :=
  if modes.spaced then skipBlanks false text else text

/-- A symbol of a pattern. -/
inductive Symbol where
  /-- A character by itself; it may have been given by the number of a byte. -/
  | character (c : Char) (asByte : Bool)
  /-- Any character but a line feed. -/
  | any
  /-- The beginning or the end of the text or of a line. -/
  | edge
  /-- The edge of a word, or a place that is none. -/
  | wordEdge
  /-- A digit, a blank or a letter of a word, or any character but those. -/
  | kind (negated : Bool)
  /-- A character of a Unicode category, or any but those. -/
  | category
  deriving DecidableEq, Repr

namespace Symbol

/-- A character as it is written. -/
def plain (c : Char) : Symbol := .character c false

/-- A character of ASCII. -/
def isAscii (c : Char) : Bool := c.toNat < 0x80

/-- Whether a pattern may hold the symbol by itself. -/
def isAllowed (unicode : Bool) : Symbol → Bool
  | .character c asByte => unicode || !asByte || isAscii c
  | .any | .category => unicode
  | .edge => true
  | .wordEdge => !unicode
  | .kind negated => unicode || !negated

/-- Whether a set may hold the symbol. -/
def isMember (unicode : Bool) : Symbol → Bool
  | .character c _ => unicode || isAscii c
  | .category => unicode
  | .kind negated => unicode || !negated
  | .any | .edge | .wordEdge => false

/-- The letters of the Unicode categories that have a name of one letter. -/
def categories : List Char := "CLMNPSZclmnpsz".toList

/-- The letters after a backslash that stand for a control character, and that character. -/
def controls : List (Char × Char) :=
  [('a', '\x07'), ('f', '\x0c'), ('t', '\t'), ('n', '\n'), ('r', '\r'), ('v', '\x0b')]

/-- Whether a character stands for itself after a backslash. -/
def isSelf (c : Char) : Bool := isAscii c && !c.isAlphanum && c ≠ '<' && c ≠ '>'

/-- The letters after a backslash that begin the number of a character, and its digits. -/
def numberDigits? : Char → Option Nat
  | 'x' => some 2
  | 'u' => some 4
  | 'U' => some 8
  | _ => none

/-- Reads so many digits of a number in base sixteen, after the number already read. -/
def readNumber? (modes : Modes) (text : List Char) : (digits n : Nat) → Option (Nat × List Char)
  | 0, n => some (n, text)
  | digits + 1, n =>
    match modes.skip text with
    | [] => none
    | c :: rest => do readNumber? modes rest digits (n * 16 + (← Decimal.digitValue? 16 c))

/-- The character with a number. -/
def ofNumber? (n : Nat) : Option Char :=
  if n < 0xD800 || (0xDFFF < n && n < 0x110000) then some (Char.ofNat n) else none

/-- Reads the symbol that a backslash begins, and gives what follows it. -/
def readEscape? (modes : Modes) : List Char → Option (Symbol × List Char)
  | [] => none
  | c :: rest =>
    match numberDigits? c, controls.lookup c with
    | some digits, _ => do
      let (n, rest) ← readNumber? modes rest digits 0
      some (.character (← ofNumber? n) (c = 'x'), rest)
    | none, some control => some (.plain control, rest)
    | none, none =>
      if isSelf c then some (.plain c, rest)
      else if c = 'p' || c = 'P' then
        match modes.skip rest with
        | letter :: rest => if letter ∈ categories then some (.category, rest) else none
        | [] => none
      else if c ∈ ['d', 's', 'w'] then some (.kind false, rest)
      else if c ∈ ['D', 'S', 'W'] then some (.kind true, rest)
      else if c ∈ ['A', 'z'] then some (.edge, rest)
      else if c ∈ ['b', 'B', '<', '>'] then some (.wordEdge, rest)
      else none

end Symbol

end TerminalSession.Log.Pattern
