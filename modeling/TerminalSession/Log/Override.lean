import TerminalSession.Log.Level
import TerminalSession.Text.Blank

/-!
# Log settings

How much is logged is chosen by a *preset*, and for single targets by *overrides*, each written as a
target and a level with an equals sign between them. Together they come to a text of directives for
a filter; the overrides stand last in it, so that they win over the preset.
-/

namespace TerminalSession.Log

set_option autoImplicit false

/-- What is logged unless something else is said. -/
inductive Preset where
  /-- The beginnings and ends of sessions and their changes of status. -/
  | production
  | verbose
  | debug
  | trace
  /-- Warnings and errors only. -/
  | quiet
  deriving DecidableEq, Repr

namespace Preset

/-- The name of a preset. -/
def name : Preset → String
  | production => "Production"
  | verbose => "Verbose"
  | debug => "Debug"
  | trace => "Trace"
  | quiet => "Quiet"

/-- The preset of flags: quiet wins, and then the flag for the most detail. -/
def ofFlags (verbose debug trace quiet : Bool) : Preset :=
  if quiet then .quiet
  else if trace then .trace
  else if debug then .debug
  else if verbose then .verbose
  else .production

/-- The directives of a preset. -/
def directives : Preset → List String
  | production =>
    ["termwatch::cli=info", "termwatch::session=info", "termwatch::activity=warn",
     "termwatch::transcript=warn", "termwatch::dispatch=warn"]
  | verbose => ["termwatch=info"]
  | debug => ["termwatch=debug"]
  | trace => ["termwatch=trace"]
  | quiet => ["termwatch=warn"]

end Preset

/-- The level of one target. -/
structure Override where
  target : List Char
  level : Level
  deriving DecidableEq, Repr

namespace Override

/-- What is wrong with a text that is no override. -/
inductive Fault where
  | noEquals (text : List Char)
  | noTarget (text : List Char)
  | unknownLevel (level target : List Char)
  deriving DecidableEq, Repr

/-- What a user is told. -/
def Fault.message : Fault → String
  | .noEquals text => "expected TARGET=LEVEL, got '" ++ String.ofList text ++ "'"
  | .noTarget text => "missing target in '" ++ String.ofList text ++ "'"
  | .unknownLevel level target =>
    "unknown level '" ++ String.ofList level ++ "' for target '" ++ String.ofList target ++ "'"

/-- The target that all targets of the program lie below. -/
def root : List Char := "termwatch".toList

/-- What stands between a target and the one it lies below. -/
def separator : List Char := "::".toList

/-- The full name of a target, which may be written without the root. -/
def fullTarget (target : List Char) : List Char :=
  if target = root || (root ++ separator).isPrefixOf target then target
  else root ++ separator ++ target

/-- Reads an override. Blanks around the target and around the level do not count. -/
def read (text : List Char) : Except Fault Override :=
  match text.dropWhile (· ≠ '=') with
  | [] => .error (.noEquals text)
  | _ :: level =>
    let target := Text.trim (text.takeWhile (· ≠ '='))
    if target.isEmpty then .error (.noTarget text)
    else
      match Level.ofText? (Text.trim level) with
      | some level => .ok { target := fullTarget target, level }
      | none => .error (.unknownLevel (Text.trim level) target)

/-- The directive of an override. -/
def write (o : Override) : List Char := o.target ++ '=' :: o.level.name.toList

end Override

/-- The text of a preset's directives and overrides, separated by commas. -/
def directives (preset : Preset) (overrides : List Override) : List Char :=
  [','].intercalate (preset.directives.map String.toList ++ overrides.map Override.write)

end TerminalSession.Log
