import TerminalSession.Command
import TerminalSession.Text.Lines

/-!
# Options of the command line

A *switch* is an option as it is written: by a long name after two dashes, and some also by a letter
after one. A *choice* is a switch with its value, which has been read and found good.
-/

namespace TerminalSession.CommandLine

set_option autoImplicit false

/-- An option. -/
inductive Switch where
  | help
  | version
  | settings
  | verbose
  | debug
  | trace
  | quiet
  | log
  | logFormat
  | name
  | transcript
  | input
  | tee
  | kind
  deriving DecidableEq, Repr

/-- An option with its value. -/
inductive Choice where
  | settings (path : String)
  | verbose
  | debug
  | trace
  | quiet
  | log (overrides : List Log.Override)
  | logFormat (format : Log.Format)
  | name (name : String)
  | transcript (path : String)
  | input (path : String)
  | tee
  | kind (kind : Archive.Context)
  deriving DecidableEq, Repr

namespace Switch

/-- The long name of an option. -/
def long : Switch → String
  | help => "help"
  | version => "version"
  | settings => "config"
  | verbose => "verbose"
  | debug => "debug"
  | trace => "trace"
  | quiet => "quiet"
  | log => "log"
  | logFormat => "log-format"
  | name => "name"
  | transcript => "transcript"
  | input => "input"
  | tee => "tee"
  | kind => "kind"

/-- The letter of an option, if it has one. -/
def letter? : Switch → Option Char
  | help => some 'h'
  | version => some 'V'
  | settings => some 'c'
  | verbose => some 'v'
  | debug => some 'd'
  | quiet => some 'q'
  | trace | log | logFormat | name | transcript | input | tee | kind => none

/-- Whether an option needs a value. -/
def takesValue : Switch → Bool
  | settings | log | logFormat | name | transcript | input | kind => true
  | help | version | verbose | debug | trace | quiet | tee => false

/-- The options that stand before a command or after it. -/
def common : List Switch := [help, settings, verbose, debug, trace, quiet, log, logFormat]

/-- The value of an option that is a path, which cannot be empty. -/
def path? (value : List Char) : Option String :=
  if value.isEmpty then none else some (String.ofList value)

/-- Overrides separated by commas. -/
def overrides? (value : List Char) : Option (List Log.Override) :=
  (Text.pieces ',' value).mapM fun text => (Log.Override.read text).toOption

/-- The format of a log by its name. -/
def format? (value : List Char) : Option Log.Format :=
  if value = "text".toList then some .text
  else if value = "json".toList then some .json
  else none

/-- What a summary is made from, by its name. -/
def context? (value : List Char) : Option Archive.Context :=
  if value = "title".toList then some .title
  else if value = "learnings".toList then some .learnings
  else none

/-- The choice that an option with a value stands for, if the value is good. Asking for help or for
the version is no choice. -/
def choice? (value : List Char) : Switch → Option Choice
  | help | version => none
  | settings => (path? value).map .settings
  | verbose => some .verbose
  | debug => some .debug
  | trace => some .trace
  | quiet => some .quiet
  | log => (overrides? value).map .log
  | logFormat => (format? value).map .logFormat
  | name => some (.name (String.ofList value))
  | transcript => (path? value).map .transcript
  | input => (path? value).map .input
  | tee => some .tee
  | kind => (context? value).map .kind

end Switch

namespace Choice

/-- The option of a choice. -/
def switch : Choice → Switch
  | settings _ => .settings
  | verbose => .verbose
  | debug => .debug
  | trace => .trace
  | quiet => .quiet
  | log _ => .log
  | logFormat _ => .logFormat
  | name _ => .name
  | transcript _ => .transcript
  | input _ => .input
  | tee => .tee
  | kind _ => .kind

end Choice

/-- Whether a choice may be made more than once in one place. -/
def Switch.repeats (s : Switch) : Bool := s = .log

end TerminalSession.CommandLine
