import TerminalSession.CommandLine.Reader
import TerminalSession.Settings.Load

/-!
# The program

What the program does, given its arguments and its surroundings: what it shows, what becomes of the
files, what it logs, and the code it ends with. A command that fails ends with 1, and a command line
that cannot be read with 2. A third code is left for what stops the program itself, before it could
tell a command that it has failed.
-/

namespace TerminalSession.Program

set_option autoImplicit false

/-- What is shown to whoever asks for the version. -/
def version : String := "termwatch 0.1.0\n"

/-- What is shown to whoever asks for help. -/
def usage : String :=
  "Classify terminal session activity and record transcripts\n\n"
  ++ "Usage: termwatch [OPTIONS] COMMAND\n\n"
  ++ "Commands:\n"
  ++ "  watch [--name NAME] [--transcript FILE] [--input FILE] [--tee]\n"
  ++ "        Monitor session output piped on stdin until it ends\n"
  ++ "  show FILE\n"
  ++ "        Print the text of a stored transcript\n"
  ++ "  search QUERY FILE...\n"
  ++ "        Find a phrase across stored transcripts\n"
  ++ "  context FILE [--kind title|learnings]\n"
  ++ "        Print the bounded context a summarizer would receive\n"
  ++ "  insights FILE...\n"
  ++ "        Print prior learnings as context for a new session\n\n"
  ++ "Options:\n"
  ++ "  -c, --config FILE            Path to config file\n"
  ++ "  -v, --verbose                Enable verbose logging\n"
  ++ "  -d, --debug                  Enable debug logging\n"
  ++ "      --trace                  Enable trace logging\n"
  ++ "  -q, --quiet                  Warnings and errors only\n"
  ++ "      --log TARGET=LEVEL,...   Set log levels for specific targets\n"
  ++ "      --log-format text|json   Log output format\n"
  ++ "  -h, --help                   Print help\n"
  ++ "  -V, --version                Print version\n"

/-- The code of a command line that cannot be read. -/
def usageCode : Nat := 2

/-- The code of a command that fails. -/
def failureCode : Nat := 1

/-- The code of a program that cannot go on. -/
def breakdownCode : Nat := 101

/-- The code that a failure makes the program end with. Where there is no room for what has to be
there, the program cannot go on. -/
def codeOf : Command.Failure → Nat
  | .noRoom _ => breakdownCode
  | _ => failureCode

/-- Where the usual settings file would be: in the user's directory for settings, which has to be
given in full, or else in its usual place in the user's home. -/
def usualSettings (settingsHome home : Option String) : Option String :=
  let directory := settingsHome.filter (·.startsWith "/") <|> home.map (· ++ "/.config")
  directory.map (· ++ "/termwatch/config.toml")

/-- The line on the settings that have been loaded. -/
def loaded (settings : Settings) : Log.Line :=
  { level := .debug, target := Log.Line.command, message := "Loaded configuration",
    fields := [("config", String.ofList settings.toJson.write)] }

/-- The filter of a log: the text in the surroundings wins over the choices on the command line. -/
def filter? (surroundings : Option (List Char)) (i : Command.Invocation) : Option Log.Filter :=
  Log.Filter.ofTexts? (surroundings.toList ++ [Log.directives i.preset i.overrides])

/-- What the program finds when it is started. -/
structure Surroundings where
  directory : Directory := {}
  /-- What can be read from the standard input, all of it at once. -/
  input : Bytes := []
  /-- The text of a log filter. -/
  filter : Option (List Char) := none
  /-- Where the usual settings file would be. -/
  settingsPath : Option String := none
  /-- The time of day of each instant. -/
  clock : Nat → Int := fun _ => 0

/-- What the program leaves behind. -/
structure Outcome where
  code : Nat := 0
  output : Bytes := []
  directory : Directory
  format : Log.Format := .text
  log : List Log.Line := []

/-- Carries out a command: what it shows, what becomes of the files, and what is logged. -/
def carryOut (s : Surroundings) (settings : Settings) :
    Command → Except Command.Failure (Bytes × Directory × List Log.Line)
  | .watch options =>
    (Watch.run settings options s.clock s.directory [.output s.input]).map fun outcome =>
      (outcome.copied, outcome.directory, outcome.log)
  | .ask question =>
    (Archive.answer s.directory.read settings.summary question).map fun answer =>
      (Utf8.encode answer.output, s.directory, answer.log)

/-- Runs a command that has been read, with a filter for its log. -/
def runLogged (s : Surroundings) (i : Command.Invocation) (filter : Log.Filter) : Outcome :=
  let logged (lines : List Log.Line) := lines.filter (Log.Line.isLogged filter)
  match Settings.choose s.directory.read s.settingsPath i.settings with
  | .error failure => { code := codeOf failure, directory := s.directory, format := i.format }
  | .ok settings =>
    match carryOut s settings i.command with
    | .error failure =>
      { code := codeOf failure, directory := s.directory, format := i.format,
        log := logged [loaded settings] }
    | .ok (output, directory, log) =>
      { output, directory, format := i.format, log := logged (loaded settings :: log) }

/-- Runs a command that has been read. Without a filter for its log the program cannot go on. -/
def runCommand (s : Surroundings) (i : Command.Invocation) : Outcome :=
  match filter? s.filter i with
  | some filter => runLogged s i filter
  | none => { code := breakdownCode, directory := s.directory, format := i.format }

/-- Runs the program. -/
def run (s : Surroundings) (arguments : List String) : Outcome :=
  match CommandLine.read arguments with
  | .error .help => { output := Utf8.encode usage.toList, directory := s.directory }
  | .error .version => { output := Utf8.encode version.toList, directory := s.directory }
  | .error (.fault _) => { code := usageCode, directory := s.directory }
  | .ok invocation => runCommand s invocation

end TerminalSession.Program
