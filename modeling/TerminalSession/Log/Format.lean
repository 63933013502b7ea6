import TerminalSession.Calendar
import TerminalSession.Json.Writer
import TerminalSession.Log.Line

/-!
# How a log is written

A log is written one line at a time, each with its time: either as text, for people, or as a JSON
object, for programs.
-/

namespace TerminalSession.Log

set_option autoImplicit false

/-- How log lines are written. -/
inductive Format where
  | text
  /-- Each line is a JSON object. -/
  | json
  deriving DecidableEq, Repr

namespace Line

/-- A line as a JSON object. -/
def toJson (time : Nat) (l : Line) : Json :=
  .ofFields [
    ("timestamp", .ofText (Calendar.write time)),
    ("level", .ofString l.level.label),
    ("fields", .ofFields (((messageField, l.message) :: l.fields).map fun f =>
      (f.1, .ofString f.2))),
    ("target", .ofString l.target)]

/-- A line as text, with its fields after the message. -/
def toText (time : Nat) (l : Line) : List Char :=
  Calendar.write time ++ " ".toList ++ l.level.label.toList ++ " ".toList ++ l.target.toList
    ++ ": ".toList ++ l.message.toList
    ++ l.fields.flatMap fun f => (" " ++ f.1 ++ "=" ++ f.2).toList

/-- A line as it is written, without its end. The time is in milliseconds since the beginning
of 1970. -/
def write (format : Format) (time : Nat) (l : Line) : List Char :=
  match format with
  | .text => l.toText time
  | .json => (l.toJson time).write

end Line

end TerminalSession.Log
