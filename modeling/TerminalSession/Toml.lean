import TerminalSession.Decimal

/-!
# TOML values

What a configuration document holds. Numbers with a fraction and dates keep their literal: nothing
here computes with them, but a document that misspells one is refused.
-/

namespace TerminalSession

set_option autoImplicit false

/-- A TOML value. -/
inductive Toml where
  | string (text : List Char)
  | integer (value : Int)
  | float (literal : List Char)
  | boolean (value : Bool)
  | date (literal : List Char)
  | array (items : List Toml)
  | table (members : List (List Char × Toml))
  deriving Repr

namespace Toml

/-- A reader takes something off the front of a text and gives it with the rest of the text, or
finds that it is not there. -/
abbrev Reader (α : Type) := List Char → Option (α × List Char)

/-- How deep arrays and inline tables may be nested, and how many parts a dotted key may have; both
have to stay below. -/
def depthLimit : Nat := 80

/-! ## Characters -/

/-- A space or a tab. -/
def isSpace (c : Char) : Bool := c = ' ' || c = '\t'

/-- A character that is neither a control character nor, the tab aside, ends a line. -/
def isVisible (c : Char) : Bool := c = '\t' || (0x20 ≤ c.toNat && c.toNat ≠ 0x7F)

/-- A character of a bare key. -/
def isBare (c : Char) : Bool :=
  ('A' ≤ c && c ≤ 'Z') || ('a' ≤ c && c ≤ 'z') || ('0' ≤ c && c ≤ '9') || c = '-' || c = '_'

/-! ## Spacing -/

/-- The text after any spaces. -/
def skipSpace (text : List Char) : List Char := text.dropWhile isSpace

/-- The text after a line break, if one is there. -/
def afterBreak? : List Char → Option (List Char)
  | '\n' :: rest => some rest
  | '\r' :: '\n' :: rest => some rest
  | _ => none

/-- The text after a comment, if one is there: its end of line is left. -/
def skipComment : List Char → List Char
  | '#' :: rest => rest.dropWhile isVisible
  | text => text

/-- The text after the rest of a line: spaces, perhaps a comment, and a line break or the end. -/
def afterLine? (text : List Char) : Option (List Char) :=
  match skipComment (skipSpace text) with
  | [] => some []
  | rest => afterBreak? rest

/-- The text after spaces, line breaks and comments, of which there are at most so many. A comment
is ended by a line break or by the end. -/
def skipLines? : (fuel : Nat) → List Char → Option (List Char)
  | 0, _ => none
  | fuel + 1, text =>
    match skipSpace text with
    | '#' :: rest =>
      match rest.dropWhile isVisible with
      | [] => some []
      | rest => (afterBreak? rest).bind (skipLines? fuel)
    | '\n' :: rest => skipLines? fuel rest
    | '\r' :: rest => (afterBreak? ('\r' :: rest)).bind (skipLines? fuel)
    | rest => some rest

/-- The text after any spaces, line breaks and comments. -/
def skipBlank? (text : List Char) : Option (List Char) := skipLines? (text.length + 1) text

end Toml

end TerminalSession
