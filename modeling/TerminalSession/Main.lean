import Std.Time.DateTime.Timestamp
import TerminalSession.Program

/-!
# The command line

The program at work: what `Program` decides is carried out on real files, with the real clock and
the standard streams. Output of a session that is watched, and its keystrokes, are read in the
background; whatever has come in is passed on several times a second.
-/

namespace TerminalSession.Main

open TerminalSession

set_option autoImplicit false

/-- The cause of a system's error. -/
def fileError : IO.Error → FileError
  | .noFileOrDirectory .. => .notFound
  | .inappropriateType _ code _ =>
    if code = 20 then .notDirectory
    else if code = 21 then .isDirectory
    else .other "Invalid argument"
  | error => .other (toString error)

/-- The time of day, in milliseconds since the beginning of 1970. -/
def timeOfDay : IO Nat := do
  return (← Std.Time.Timestamp.now).toMillisecondsSinceUnixEpoch.val.toNat

/-- Reads a file whole. -/
def readFile (path : String) : IO (Except FileError Bytes) := do
  try
    return .ok (← IO.FS.readBinFile path).toList
  catch error => return .error (fileError error)

/-- A way of reading the files given, which are read now. -/
def readFiles (paths : List String) : IO Reading := do
  let contents ← paths.mapM fun path => do return (path, ← readFile path)
  return fun path =>
    match contents.find? (·.1 = path) with
    | some (_, content) => content
    | none => .error .notFound

/-- Appends to a file. -/
def appendFile (path : String) (bytes : Bytes) : IO (Option FileError) := do
  try
    let file ← IO.FS.Handle.mk path .append
    file.write ⟨bytes.toArray⟩
    return none
  catch error => return some (fileError error)

/-- Writes to the standard output at once. -/
def display (bytes : Bytes) : IO Unit := do
  let output ← IO.getStdout
  output.write ⟨bytes.toArray⟩
  output.flush

/-- Writes lines to the log, as far as they are wanted. -/
abbrev Logger := List Log.Line → IO Unit

/-- The log of a command, which goes to the standard error. -/
def logger (filter : Log.Filter) (format : Log.Format) : Logger := fun lines => do
  for line in lines do
    if line.isLogged filter then
      (← IO.getStderr).putStrLn (String.ofList (line.write format (← timeOfDay)))

/-! ## Watching -/

/-- What is read in the background and waits to be passed on. -/
structure Inbox where
  /-- The bytes that have come in, the latest first. -/
  bytes : IO.Ref Bytes
  /-- Whether nothing more will come in. -/
  isClosed : IO.Ref Bool

/-- An empty inbox. -/
def Inbox.new : BaseIO Inbox := do return { bytes := ← IO.mkRef [], isClosed := ← IO.mkRef false }

/-- Reads into an inbox until there is no more. -/
partial def Inbox.fill (inbox : Inbox) (read : USize → IO ByteArray) : IO Unit := do
  let bytes ← read 1
  if bytes.isEmpty then inbox.isClosed.set true
  else
    inbox.bytes.modify (bytes.toList ++ ·)
    inbox.fill read

/-- Takes out what has come in, and whether anything more will. -/
def Inbox.take (inbox : Inbox) : BaseIO (Bytes × Bool) := do
  let isClosed ← inbox.isClosed.get
  return ((← inbox.bytes.swap []).reverse, isClosed)

/-- A watch in progress. -/
structure Session where
  cfg : Monitor.Config
  options : Watch.Options
  log : Logger
  /-- The time of day of each instant. -/
  clock : Nat → Int
  /-- How many milliseconds have passed since the beginning. -/
  elapsed : BaseIO Nat

/-- Does what is to be done. -/
def Session.perform (s : Session) : Watch.Act → IO Unit
  | .log line => s.log [line]
  | .append path batch => do s.log [Sink.line path batch.length (← appendFile path batch)]

/-- Takes a step, and does what is to be done after it. -/
def Session.step (s : Session) (stage : Stage Monitor Job) (step : Stage.Step Monitor.Call) :
    IO (Stage Monitor Job) := do
  let (stage, acts) := Watch.step s.cfg s.options s.clock stage step
  acts.forM s.perform
  return { stage with worker := { stage.worker with done := [] } }

/-- Lets the time pass that has passed. -/
def Session.catchUp (s : Session) (stage : Stage Monitor Job) : IO (Stage Monitor Job) := do
  s.step stage (.sleep ((← s.elapsed) - stage.now))

/-- Opens the keystrokes of a session and reads them in the background. -/
def Session.openKeys (s : Session) (keys : Inbox) : IO Unit := do
  if let some path := s.options.input then
    try
      let file ← IO.FS.Handle.mk path .read
      let fill : IO Unit := do
        try keys.fill file.read
        catch error => s.log [Watch.noInput path (fileError error)]
      let _ ← IO.asTask fill .dedicated
    catch error => s.log [Watch.noInput path (fileError error)]

/-- Passes on what comes in until the output ends. -/
partial def Session.follow (s : Session) (output keys : Inbox) (stage : Stage Monitor Job) :
    IO (Stage Monitor Job) := do
  IO.sleep 5
  let (typed, _) ← keys.take
  let (shown, isOver) ← output.take
  if s.options.tee && !shown.isEmpty then display shown
  let stage ← s.catchUp stage
  let stage ← (Watch.inputSteps typed ++ Watch.outputSteps shown).foldlM s.step stage
  if isOver then return stage
  s.follow output keys stage

/-- Watches the standard input. -/
def watch (settings : Settings) (options : Watch.Options) (log : Logger) :
    IO (Except Command.Failure Unit) := do
  match Watch.equip settings with
  | .error failure => return .error failure
  | .ok equipment =>
    let cfg := equipment.cfg
    let start ← IO.monoMsNow
    let today ← timeOfDay
    let s : Session := {
      cfg, options, log
      clock := fun now => today + now
      elapsed := do return (← IO.monoMsNow) - start }
    let output ← Inbox.new
    let keys ← Inbox.new
    log [Watch.begun options]
    s.openKeys keys
    let input ← IO.getStdin
    let _ ← IO.asTask (output.fill input.read) .dedicated
    let stage ← s.follow output keys equipment.begin
    log [Watch.closed]
    IO.sleep (min cfg.classifier.debounce 0xFFFFFFFF).toUInt32
    let stage ← (Watch.teardown cfg).foldlM s.step stage
    log [Watch.ended stage.state.classifier.status]
    return .ok ()

/-! ## Commands -/

/-- Carries out a command. -/
def carryOut (settings : Settings) (log : Logger) : Command → IO (Except Command.Failure Unit)
  | .watch options => watch settings options log
  | .ask question => do
    match Archive.answer (← readFiles question.paths) settings.summary question with
    | .error failure => return .error failure
    | .ok answer =>
      display (Utf8.encode answer.output)
      log answer.log
      return .ok ()

/-- Runs a command that has been read, with a log. -/
def runLogged (i : Command.Invocation) (log : Logger) : IO (Except Command.Failure Unit) := do
  let usual := Program.usualSettings (← IO.getEnv "XDG_CONFIG_HOME") (← IO.getEnv "HOME")
  match Settings.choose (← readFiles (i.settings.toList ++ usual.toList)) usual i.settings with
  | .error failure => return .error failure
  | .ok settings =>
    log [Program.loaded settings]
    carryOut settings log i.command

/-- Runs a command that has been read, and gives the code to end with. -/
def runCommand (i : Command.Invocation) : IO Nat := do
  match Program.filter? ((← IO.getEnv "RUST_LOG").map String.toList) i with
  | none =>
    IO.eprintln "the log filter cuts a character"
    return Program.breakdownCode
  | some filter =>
    match ← runLogged i (logger filter i.format) with
    | .ok () => return 0
    | .error failure =>
      IO.eprintln ("Error: " ++ failure.message)
      return Program.codeOf failure

end TerminalSession.Main

open TerminalSession in
/-- Runs the program with the arguments of its command line, and gives the code it ends with. -/
def main (arguments : List String) : IO UInt32 := do
  match CommandLine.read arguments with
  | .error .help =>
    Main.display (Utf8.encode Program.usage.toList)
    return 0
  | .error .version =>
    Main.display (Utf8.encode Program.version.toList)
    return 0
  | .error (.fault fault) =>
    IO.eprintln ("error: " ++ fault.message)
    return Program.usageCode.toUInt32
  | .ok invocation => return (← Main.runCommand invocation).toUInt32
