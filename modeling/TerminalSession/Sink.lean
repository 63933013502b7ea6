import TerminalSession.Files
import TerminalSession.Log.Line

/-!
# The transcript file

Batches of entries are appended to a file, which is made when the first one comes. A batch that
cannot be appended is lost, and the next one is tried afresh.
-/

namespace TerminalSession.Sink

set_option autoImplicit false

/-- Appends a batch to a file, and gives the error if that fails. -/
def append (path : String) (batch : Bytes) (d : Directory) : Directory × Option FileError :=
  match d.append path batch with
  | .ok d => (d, none)
  | .error error => (d, some error)

/-- The line on a batch of so many bytes that was to be appended to a file. -/
def line (path : String) (bytes : Nat) : Option FileError → Log.Line
  | none =>
    { level := .debug, target := Log.Line.command, message := "Appended transcript batch",
      fields := [("bytes", Log.Line.number bytes), ("path", path)] }
  | some error =>
    { level := .error, target := Log.Line.command,
      message := "Failed to write transcript batch: " ++ error.message, fields := [("path", path)] }

/-- The line on a batch of so many bytes that no file was given for. -/
def discarded (bytes : Nat) : Log.Line :=
  { level := .debug, target := Log.Line.command, message := "Discarding batch",
    fields := [("bytes", Log.Line.number bytes)] }

end TerminalSession.Sink
