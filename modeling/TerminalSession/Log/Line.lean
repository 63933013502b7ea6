import TerminalSession.Log.Filter
import TerminalSession.Monitor

/-!
# Log lines

What is logged of a session: a line for each thing that happens in its monitor, and lines for what
is done about it. Every line has a target, which says what part of the program it comes from, and
fields besides its message.
-/

namespace TerminalSession.Log

set_option autoImplicit false

/-- One line of a log. -/
structure Line where
  level : Level
  /-- The part of the program that the line comes from. -/
  target : String
  message : String
  /-- What else is known, by name. -/
  fields : List (String × String) := []
  deriving DecidableEq, Repr

namespace Line

/-- The parts of the program that lines come from. -/
def session : String := "termwatch::session"

/-- Where lines on a session's activity come from. -/
def activity : String := "termwatch::activity"

/-- Where lines on what is recorded come from. -/
def transcript : String := "termwatch::transcript"

/-- Where lines on commands come from. -/
def command : String := "termwatch::cli"

/-- The name of the field that holds the message. -/
def messageField : String := "message"

/-- A line in one piece: its level, its target and its message. -/
def text (l : Line) : String := s!"{l.level.label} {l.target} {l.message}"

/-- Whether a filter lets a line through. -/
def isLogged (filter : Filter) (l : Line) : Bool :=
  let names := (messageField :: l.fields.map (·.1)).map String.toList
  (filter.threshold l.target.toList names).admits l.level

/-- A number in a field. -/
def number (n : Nat) : String := String.ofList (Decimal.write n)

/-- A change of status in words. -/
def arrow (c : Change) : String := s!"Status {c.previous.name} -> {c.current.name}"

/-- The line of something that happens in a classifier. -/
def ofClassifier : Classifier.Event → Line
  | .changed _ change => { level := .debug, target := activity, message := arrow change }
  | .debounced _ change =>
    { level := .trace, target := activity, message := "Status change discarded by debounce",
      fields := [("current", change.previous.name), ("candidate", change.current.name)] }
  | .silent _ duration =>
    { level := .info, target := activity, message := "No output within idle timeout",
      fields := [("quiet_ms", number duration)] }
  | .stopped => { level := .trace, target := activity, message := "Classifier stopped" }

/-- The line of something that happens in a recorder. -/
def ofRecorder : Recorder.Event → Line
  | .flushed batch =>
    { level := .debug, target := transcript, message := "Flushing transcript batch",
      fields := [("entries", number batch.length),
        ("bytes", number (Stamped.totalSize batch))] }
  | .collapsed count =>
    { level := .trace, target := transcript, message := "Collapsed repeated frames",
      fields := [("repeats", number count)] }
  | .cutOff bytes =>
    { level := .debug, target := transcript, message := "Dropping unterminated escape sequence",
      fields := [("bytes", number bytes)] }
  | .stopped => { level := .trace, target := transcript, message := "Recorder stopped" }

/-- The line of something that happens in a session's monitor. -/
def ofMonitor (name : String) : Monitor.Event → Line
  | .activity event => ofClassifier event
  | .transcript event => ofRecorder event
  | .stopped status =>
    { level := .info, target := session, message := "Monitoring stopped",
      fields := [("session", name), ("status", status.name)] }

end Line

end TerminalSession.Log
