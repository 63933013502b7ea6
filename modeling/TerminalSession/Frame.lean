import TerminalSession.Text.Blank
import TerminalSession.Text.Digit

/-!
# Animation frames

A spinner or a progress counter redraws itself many times, and each redraw arrives as output. A
*frame* is output that looks like one of those: nothing but spinner glyphs, or a percentage at the
start. Only repeated frames are ever left out of a transcript, so a false alarm costs little.
-/

namespace TerminalSession.Frame

set_option autoImplicit false

open TerminalSession.Text

/-- The glyphs that spinners turn through. -/
def glyphs : List Char := "⠋⠙⠹⠸⠼⠴⠦⠧⠇⠏⣾⣽⣻⢿⡿⣟⣯⣷|/-\\".toList

/-- Nothing but glyphs and blanks, and at least one of them. -/
def isSpinner (text : List Char) : Bool :=
  !text.isEmpty && text.all fun c => isBlank c || glyphs.contains c

/-- A number followed by a percent sign, after any blanks. -/
def isProgress (text : List Char) : Bool :=
  let number := trimStart text
  match number.dropWhile isDecimalDigit with
  | '%' :: _ => (number.takeWhile isDecimalDigit).length > 0
  | _ => false

/-- Output that looks like one drawing of a spinner or a progress counter. -/
def isFrame (text : List Char) : Bool := isSpinner text || isProgress text

end TerminalSession.Frame
