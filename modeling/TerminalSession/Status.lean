import TerminalSession.Json

/-!
# Session status

What a session is doing, as far as its output shows, and the change from one status to another. Both
have a name for people and a JSON form for programs.
-/

namespace TerminalSession

set_option autoImplicit false

/-- What a session is doing. -/
inductive Status where
  /-- Producing output. -/
  | active
  /-- Waiting at a prompt. -/
  | needsInput
  /-- Silent for the idle timeout. -/
  | idle
  /-- Gone; nothing follows. -/
  | exited
  deriving DecidableEq, Repr

namespace Status

/-- The status of a session that has just begun. -/
def initial : Status := .active

/-- The name of a status. -/
def name : Status → String
  | .active => "active"
  | .needsInput => "needs-input"
  | .idle => "idle"
  | .exited => "exited"

/-- All statuses. -/
def all : List Status := [.active, .needsInput, .idle, .exited]

/-- The status with a name. -/
def ofName? (name : String) : Option Status := all.find? (·.name = name)

/-- Whether a user may want to look at the session. -/
def isLive : Status → Bool
  | .active | .needsInput => true
  | .idle | .exited => false

/-- The JSON form of a status is its name. -/
def toJson (s : Status) : Json := .ofString s.name

/-- Reads a status from its name, which may be written as the key of an object without a value. -/
def ofJson? (j : Json) : Option Status := do ofName? (String.ofList (← j.case?))

end Status

/-- A status and the one that took its place. -/
structure Change where
  previous : Status
  current : Status
  deriving DecidableEq, Repr

namespace Change

/-- A change in words. -/
def name (c : Change) : String := s!"{c.previous.name}->{c.current.name}"

/-- The JSON form of a change. -/
def toJson (c : Change) : Json :=
  .ofFields [("previous", c.previous.toJson), ("current", c.current.toJson)]

/-- Reads a change. -/
def ofJson? (j : Json) : Option Change :=
  match j.fields? ["previous", "current"] with
  | some [previous, current] => do
    some { previous := ← Status.ofJson? previous, current := ← Status.ofJson? current }
  | _ => none

end Change

end TerminalSession
