import TerminalSession.Failure

/-!
# Failures of commands

Why a command fails, and what its user is told: what the command was doing, and then the cause.
Where the cause has a cause of its own, as a transcript that cannot be read because of its file,
both are told.
-/

namespace TerminalSession

set_option autoImplicit false

/-- Why a command fails. -/
inductive Command.Failure where
  /-- A transcript cannot be read. -/
  | transcript (path : String) (error : FileError)
  /-- A file of learnings cannot be read as text. -/
  | learnings (path : String) (error : FileError)
  /-- The settings file cannot be read as text. -/
  | settingsFile (error : FileError)
  /-- The settings file is not in its format, or holds something that is no setting. -/
  | settingsText
  | settings (fault : Settings.Fault)
  /-- A search for nothing. -/
  | emptyQuery
  /-- A session cannot be monitored with the settings given. -/
  | monitor (fault : Settings.Fault)
  /-- There can be no room for what the settings ask for. -/
  | noRoom (excess : Settings.Excess)
  deriving DecidableEq, Repr

/-- What a user is told: what was done and its causes, the nearest first. -/
def Command.Failure.message : Command.Failure → String
  | .transcript path error =>
    s!"failed to read transcript {path}: " ++ (Failure.file error).message ++ ": " ++ error.message
  | .learnings path error => s!"failed to read learnings {path}: " ++ error.message
  | .settingsFile error => error.message
  | .settingsText => "the settings file is not valid"
  | .settings fault => (Failure.invalidSettings fault).message
  | .emptyQuery => "query cannot be empty"
  | .monitor fault =>
    "failed to start session monitor: " ++ (Failure.invalidSettings fault).message
  | .noRoom excess => excess.message

end TerminalSession
