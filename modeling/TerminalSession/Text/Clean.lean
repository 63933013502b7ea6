import TerminalSession.Text.Blank
import TerminalSession.Escape.Strip

/-!
# Cleaned text

What a terminal received is turned into what a reader would want to keep. For the transcript the
lines stay lines (`forTranscript`); for a summary only the words matter (`forSummary`).
-/

namespace TerminalSession.Text

set_option autoImplicit false

/-- Limits every run of line feeds to two. `run` counts the line feeds just before the text. -/
def limitBreaks (run : Nat) : List Char → List Char
  | [] => []
  | c :: rest =>
    if c = '\n' then
      if run < 2 then c :: limitBreaks (run + 1) rest else limitBreaks (run + 1) rest
    else c :: limitBreaks 0 rest

/-- Output as the transcript keeps it: no escape sequences, no carriage returns, at most one empty
line in a row, and no blanks at the ends. -/
def forTranscript (text : List Char) : List Char :=
  trim (limitBreaks 0 ((Escape.strip text).filter (· ≠ '\r')))

/-- The words of the output, escape sequences removed, with single spaces between them. -/
def forSummary (text : List Char) : List Char := collapseBlanks (Escape.strip text)

end TerminalSession.Text
