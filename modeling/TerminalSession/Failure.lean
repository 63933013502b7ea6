import TerminalSession.Files

/-!
# Failures

Why an operation on a session or a transcript fails, and what a user is told about it.
-/

namespace TerminalSession

set_option autoImplicit false

/-- A setting that must not be zero and is. -/
inductive Settings.Fault where
  | idleTimeout
  | windowBytes
  | promptLines
  | flushThreshold
  | flushInterval
  /-- One of the limits on what a summary is made from. -/
  | summaryLimit
  deriving DecidableEq, Repr

/-- What a user is told about a setting. -/
def Settings.Fault.message : Settings.Fault → String
  | .idleTimeout => "idle_timeout must be non-zero"
  | .windowBytes => "window_bytes must be non-zero"
  | .promptLines => "prompt_lines must be non-zero"
  | .flushThreshold => "flush_threshold_bytes must be non-zero"
  | .flushInterval => "flush_interval must be non-zero"
  | .summaryLimit => "summary context limits must be non-zero"

/-- A setting that asks for more room than there can be. -/
inductive Settings.Excess where
  /-- The worker's queue. -/
  | queue
  /-- The classifier's window. -/
  | window
  deriving DecidableEq, Repr

/-- What a user is told about such a setting. -/
def Settings.Excess.message : Settings.Excess → String
  | .queue => "dispatch_queue is too large"
  | .window => "window_bytes is too large"

/-- Why an operation on a session or a transcript fails. -/
inductive Failure where
  /-- There is nothing to run a session's timers on. -/
  | noTimers
  | invalidSettings (fault : Settings.Fault)
  /-- There can be no room for what the settings ask for. -/
  | noRoom (excess : Settings.Excess)
  /-- A search for nothing. -/
  | emptyQuery
  | file (error : FileError)
  deriving DecidableEq, Repr

/-- What a user is told. -/
def Failure.message : Failure → String
  | .noTimers => "No tokio runtime available to drive session timers"
  | .invalidSettings fault => "Invalid configuration: " ++ fault.message
  | .noRoom excess => excess.message
  | .emptyQuery => "Search query cannot be empty"
  | .file error => "IO error: " ++ error.message

end TerminalSession
