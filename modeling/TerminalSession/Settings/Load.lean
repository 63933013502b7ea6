import TerminalSession.Command.Failure
import TerminalSession.Settings.Toml

/-!
# Loading settings

A settings file has to be text, in the format of settings, and free of faults, in this order.
-/

namespace TerminalSession.Settings

set_option autoImplicit false

/-- Reads and checks the settings in a file. -/
def load (read : Reading) (path : String) : Except Command.Failure Settings :=
  match read.text path with
  | .error error => .error (.settingsFile error)
  | .ok text =>
    match ofToml? text with
    | none => .error .settingsText
    | some settings =>
      match settings.check with
      | .error fault => .error (.settings fault)
      | .ok () => .ok settings

/-- The settings in the file that a user names. Without one, those in the usual file if there is
one, and the defaults if not. -/
def choose (read : Reading) (usual named : Option String) : Except Command.Failure Settings :=
  match named <|> usual.filter read.finds with
  | some path => load read path
  | none => .ok {}

end TerminalSession.Settings
