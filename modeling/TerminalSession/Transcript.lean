import TerminalSession.Entry
import TerminalSession.Text.Blank
import TerminalSession.Text.Lines
import TerminalSession.Utf8

/-!
# Stored transcripts

A stored transcript is whatever bytes a file holds. Each line is read by itself, so a damaged line
costs that line alone: blank lines and lines that are no entry are passed over.
-/

namespace TerminalSession.Transcript

set_option autoImplicit false

/-- The lines of a stored transcript that hold anything, without the blanks around them. -/
def entryLines (data : Bytes) : List (List Char) :=
  ((Text.lines (Utf8.decode data)).map Text.trim).filter (!·.isEmpty)

/-- The entries of a stored transcript. -/
def read (data : Bytes) : List Entry := (entryLines data).filterMap Entry.read?

/-- How many lines of a stored transcript hold something and are no entry. -/
def damagedLines (data : Bytes) : Nat :=
  (entryLines data).countP fun line => (Entry.read? line).isNone

/-- The text of a stored transcript: what its entries hold, one after the other. -/
def text (data : Bytes) : List Char := (read data).flatMap fun e => e.text.toList

end TerminalSession.Transcript
