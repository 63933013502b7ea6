import TerminalSession.Json.Writer
import TerminalSession.Json.Reader

/-!
# Transcript entries

An entry of a transcript is a piece of text, typed or shown, with the wall-clock time at which it
was recorded. A transcript file holds one entry a line, each in its JSON form, so a batch of entries
can be appended without reading what is there.
-/

namespace TerminalSession

set_option autoImplicit false

/-- Which way a text went. -/
inductive Direction where
  /-- Typed by the user. -/
  | input
  /-- Shown by the session. -/
  | output
  deriving DecidableEq, Repr

namespace Direction

/-- The name of a direction. -/
def name : Direction → String
  | .input => "input"
  | .output => "output"

/-- The direction with a name. -/
def ofName? (name : String) : Option Direction := [input, output].find? (·.name = name)

/-- Reads a direction from its name, which may be the key of an object without a value. -/
def ofJson? (j : Json) : Option Direction := do ofName? (String.ofList (← j.case?))

end Direction

/-- A recorded text. -/
structure Entry where
  /-- When it was recorded, in milliseconds since the beginning of 1970. -/
  time : Int
  direction : Direction
  text : String
  deriving DecidableEq, Repr

namespace Entry

/-- The JSON form of an entry. -/
def toJson (e : Entry) : Json :=
  .ofFields [("ts", .ofInt e.time), ("type", .ofString e.direction.name),
    ("text", .ofString e.text)]

/-- Reads an entry. Its time has to fit 64 bits. -/
def ofJson? (j : Json) : Option Entry :=
  match j.fields? ["ts", "type", "text"] with
  | some [time, direction, text] => do
    some {
      time := ← time.int64?
      direction := ← Direction.ofJson? direction
      text := ← text.string? }
  | _ => none

/-- The line of an entry, without its end. -/
def write (e : Entry) : List Char := e.toJson.write

/-- Reads the line of an entry. -/
def read? (line : List Char) : Option Entry := (Json.read? line).bind ofJson?

/-- The lines of entries, each with its end. -/
def writeAll (entries : List Entry) : List Char := entries.flatMap fun e => e.write ++ ['\n']

end Entry

end TerminalSession
