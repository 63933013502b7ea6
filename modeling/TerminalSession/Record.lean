import TerminalSession.Entry
import TerminalSession.Status
import TerminalSession.Utf8

/-!
# Records and jobs

What the recorder keeps until it is handed over, and the jobs that the components of a session
submit to their worker.
-/

namespace TerminalSession

set_option autoImplicit false

/-- Something recorded. -/
inductive Record where
  /-- The user typed a text. -/
  | typed (text : List Char)
  /-- The session showed a text. -/
  | shown (text : List Char)
  /-- The text shown last came so many more times. -/
  | repeated (count : Nat)
  deriving DecidableEq, Repr

namespace Record

/-- Which way a record's text went. A count of repeats stands among what was shown. -/
def direction : Record → Direction
  | .typed _ => .input
  | .shown _ | .repeated _ => .output

/-- The text that a record leaves in the transcript. -/
def text : Record → List Char
  | .typed text | .shown text => text
  | .repeated count => "[repeated ".toList ++ Decimal.write count ++ " times]".toList

/-- How many bytes a record takes up in a buffer. A count of repeats takes up none. -/
def size : Record → Nat
  | .typed text | .shown text => Utf8.size text
  | .repeated _ => 0

end Record

/-- A record and the instant at which it was made, in milliseconds of the session's own time. -/
structure Stamped where
  time : Nat
  record : Record
  deriving DecidableEq, Repr

namespace Stamped

/-- The transcript entry of a record, given the wall-clock time of each instant. -/
def entry (clock : Nat → Int) (s : Stamped) : Entry :=
  { time := clock s.time, direction := s.record.direction, text := String.ofList s.record.text }

/-- The lines that a batch of records adds to a transcript. -/
def writeAll (clock : Nat → Int) (batch : List Stamped) : List Char :=
  Entry.writeAll (batch.map (entry clock))

/-- How many bytes a batch takes up. -/
def totalSize : List Stamped → Nat
  | [] => 0
  | s :: batch => s.record.size + totalSize batch

end Stamped

/-- A job for the worker of a session. -/
inductive Job where
  /-- Tell whoever listens of a change of status. -/
  | notify (change : Change)
  /-- Add a batch of records to the transcript. -/
  | persist (batch : List Stamped)
  deriving DecidableEq, Repr

end TerminalSession
