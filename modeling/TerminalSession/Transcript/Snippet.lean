import TerminalSession.Text.Blank
import TerminalSession.Utf8

/-!
# Snippets

A snippet shows a place in a text on one line: the place itself and some characters on either side.
Places are given by byte offsets, which may lie inside a character or beyond the end of the text;
they are moved outwards to the next boundary between characters.
-/

namespace TerminalSession.Transcript

set_option autoImplicit false

/-- How many characters of the text end at or before a byte offset. -/
def charsBefore : (offset : Nat) → List Char → Nat
  | _, [] => 0
  | offset, c :: rest =>
    if c.utf8Size ≤ offset then charsBefore (offset - c.utf8Size) rest + 1 else 0

/-- How many characters of the text begin before a byte offset. -/
def charsBegun : (offset : Nat) → List Char → Nat
  | _, [] => 0
  | 0, _ => 0
  | offset + 1, c :: rest => charsBegun (offset + 1 - c.utf8Size) rest + 1

/-- The place of `length` bytes at a byte offset, with up to `context` characters on either side, as
one line. -/
def snippet (text : List Char) (offset length context : Nat) : List Char :=
  let first := charsBefore offset text
  let last := charsBegun (offset + length) text
  Text.collapseBlanks ((text.take (last + context)).drop (first - context))

end TerminalSession.Transcript
