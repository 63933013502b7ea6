/-!
# Checked configurations

What the classifier, the recorder and the monitor work with: durations in milliseconds and limits,
together with the proof that those which must not be zero are not. Timers that go off every so many
milliseconds then always move forward, and no component has to look at its configuration twice.
-/

namespace TerminalSession

set_option autoImplicit false

/-- How a session's activity is judged. -/
structure Classifier.Config where
  /-- How long a session is silent before it counts as idle. -/
  idleTimeout : Nat
  /-- The least time between two changes of status. -/
  debounce : Nat
  /-- How much of the latest output is looked at, in bytes. -/
  windowBytes : Nat
  /-- How many of its last lines are looked at. -/
  promptLines : Nat
  idleTimeout_pos : 0 < idleTimeout
  windowBytes_pos : 0 < windowBytes
  promptLines_pos : 0 < promptLines

/-- When recorded entries are handed over. -/
structure Recorder.Config where
  /-- So many buffered bytes are handed over at once. -/
  flushThreshold : Nat
  /-- And whatever is buffered, this often. -/
  flushInterval : Nat
  flushThreshold_pos : 0 < flushThreshold
  flushInterval_pos : 0 < flushInterval

/-- How a session is monitored. -/
structure Monitor.Config where
  classifier : Classifier.Config
  recorder : Recorder.Config

end TerminalSession
