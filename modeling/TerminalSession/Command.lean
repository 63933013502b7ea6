import TerminalSession.Archive
import TerminalSession.Log.Format
import TerminalSession.Watch

/-!
# Commands

What a user can have the program do: watch a session as it runs, or answer a question about what was
stored of earlier ones.
-/

namespace TerminalSession

set_option autoImplicit false

/-- A command. -/
inductive Command where
  | watch (options : Watch.Options)
  | ask (question : Archive.Question)
  deriving DecidableEq, Repr

/-- A command and how it is to be carried out. -/
structure Command.Invocation where
  /-- The settings file, if it is not the usual one. -/
  settings : Option String := none
  preset : Log.Preset := .production
  overrides : List Log.Override := []
  format : Log.Format := .text
  command : Command
  deriving DecidableEq, Repr

end TerminalSession
