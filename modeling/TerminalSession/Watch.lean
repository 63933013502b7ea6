import TerminalSession.Command.Failure
import TerminalSession.Settings
import TerminalSession.Sink
import TerminalSession.Stage

/-!
# Watching a session

Output that comes in is passed to a monitor, and on to whoever wants a copy of it. What the monitor
finds out becomes a list of *acts*, which are left to others to do: `Watch.perform` does them on a
directory in memory. At the end of the output the session counts as exited, but only after the
debounce interval has passed, as a change within it would be discarded.

`Watch.run` watches a session that is given as a script, in which output and waits follow each
other.
-/

namespace TerminalSession.Watch

set_option autoImplicit false

/-- What a user wants of a watch. -/
structure Options where
  /-- What the session is called in the log. -/
  name : String := "stdin"
  /-- The file that the transcript goes to. -/
  transcript : Option String := none
  /-- The file that the session's keystrokes come from. -/
  input : Option String := none
  /-- Whether the output is copied. -/
  tee : Bool := false
  deriving DecidableEq, Repr

/-- Something to be done. -/
inductive Act where
  | log (line : Log.Line)
  | append (path : String) (batch : Bytes)
  deriving DecidableEq, Repr

/-! ## What follows from what the monitor finds out -/

/-- What a job of the worker comes to. The clock gives the time of day of each instant. -/
def act (options : Options) (clock : Nat → Int) : Job → Act
  | .notify change =>
    .log { level := .info, target := Log.Line.command, message := Log.Line.arrow change,
           fields := [("session", options.name)] }
  | .persist batch =>
    let bytes := Utf8.encode (Stamped.writeAll clock batch)
    match options.transcript with
    | some path => .append path bytes
    | none => .log (Sink.discarded bytes.length)

/-- One step of the monitor and its worker, and what is to be done after it. -/
def step (cfg : Monitor.Config) (options : Options) (clock : Nat → Int) (stage : Stage Monitor Job)
    (s : Stage.Step Monitor.Call) : Stage Monitor Job × List Act :=
  let moved := stage.step (Monitor.component cfg) s
  let jobs := moved.1.worker.doneSince stage.worker.done.length
  (moved.1, moved.2.map (fun event => .log (.ofMonitor options.name event))
    ++ jobs.map (act options clock))

/-- Steps in order, and what is to be done after them. -/
def steps (cfg : Monitor.Config) (options : Options) (clock : Nat → Int)
    (stage : Stage Monitor Job) : List (Stage.Step Monitor.Call) → Stage Monitor Job × List Act
  | [] => (stage, [])
  | s :: rest =>
    let first := step cfg options clock stage s
    let others := steps cfg options clock first.1 rest
    (others.1, first.2 ++ others.2)

/-- Does something on a directory; appending to a file is logged. -/
def perform (d : Directory) : Act → Directory × Log.Line
  | .log line => (d, line)
  | .append path batch =>
    let (d, error) := Sink.append path batch d
    (d, Sink.line path batch.length error)

/-- Does things in order. -/
def performAll (d : Directory) : List Act → Directory × List Log.Line
  | [] => (d, [])
  | act :: acts =>
    let first := perform d act
    let others := performAll first.1 acts
    (others.1, first.2 :: others.2)

/-! ## The beginning and the end -/

/-- What a watch works with: a configuration, and a worker who has done nothing yet. -/
structure Equipment where
  cfg : Monitor.Config
  worker : Worker Job

/-- What a watch works with by the settings given. The worker comes first, then the monitor. -/
def equip (settings : Settings) : Except Command.Failure Equipment :=
  match Worker.ofCapacity? settings.queue with
  | none => .error (.noRoom .queue)
  | some worker => do
    let cfg ← settings.checkMonitor.mapError Command.Failure.monitor
    (Settings.checkRoom cfg.classifier).mapError Command.Failure.noRoom
    return { cfg, worker }

/-- The monitor and its worker at the beginning. -/
def Equipment.begin (e : Equipment) : Stage Monitor Job :=
  { now := 0, state := Monitor.start e.cfg 0, worker := e.worker }

/-- The steps at the end of the output. -/
def teardown (cfg : Monitor.Config) : List (Stage.Step Monitor.Call) :=
  [.sleep cfg.classifier.debounce, .call .exit, .call .stop]

/-- The line on a beginning watch. -/
def begun (options : Options) : Log.Line :=
  { level := .info, target := Log.Line.session, message := "Monitoring started",
    fields := [("session", options.name)] }

/-- The line on the end of the output. -/
def closed : Log.Line :=
  { level := .debug, target := Log.Line.command, message := "Session output closed" }

/-- The line on a watch that is over. -/
def ended (status : Status) : Log.Line :=
  { level := .info, target := Log.Line.command, message := "Session ended",
    fields := [("status", status.name)] }

/-- The line on keystrokes that cannot be read: a directory is opened before it is found to be one.
-/
def noInput (path : String) : FileError → Log.Line
  | .isDirectory =>
    { level := .warn, target := Log.Line.command,
      message := "Input stream failed: " ++ FileError.isDirectory.message }
  | error =>
    { level := .warn, target := Log.Line.command,
      message := "Cannot open input stream: " ++ error.message, fields := [("path", path)] }

/-! ## Reading -/

/-- How many bytes are read at once. -/
def readSize : Nat := 8192

/-- The pieces that bytes are read in. -/
def reads (bytes : Bytes) : List Bytes :=
  if bytes.isEmpty then []
  else bytes.take readSize :: reads (bytes.drop readSize)
termination_by bytes.length
decreasing_by
  have : 0 < bytes.length := List.length_pos_iff.mpr (by simpa using ‹¬bytes.isEmpty = true›)
  simp only [List.length_drop, readSize]
  omega

/-- The steps that output comes to. -/
def outputSteps (bytes : Bytes) : List (Stage.Step Monitor.Call) :=
  (reads bytes).map fun chunk => .call (.output chunk)

/-- The steps that keystrokes come to. -/
def inputSteps (bytes : Bytes) : List (Stage.Step Monitor.Call) :=
  (reads bytes).map fun chunk => .call (.input chunk)

/-! ## Scripts -/

/-- Something that happens to a session. -/
inductive Happening where
  | output (data : Bytes)
  /-- So many milliseconds pass. -/
  | wait (ms : Nat)
  deriving DecidableEq, Repr

/-- Whether a script gives time for anything else. -/
def hasWait (script : List Happening) : Bool :=
  script.any fun
    | .output _ => false
    | .wait ms => 0 < ms

/-- The steps of a script, with the keystrokes read as soon as there is time for it. -/
def scriptSteps (keys : Bytes) : List Happening → List (Stage.Step Monitor.Call)
  | [] => []
  | .output data :: rest => outputSteps data ++ scriptSteps keys rest
  | .wait ms :: rest =>
    if 0 < ms then inputSteps keys ++ .sleep ms :: scriptSteps [] rest
    else scriptSteps keys rest

/-- The output that comes with a step. -/
def outputIn : Stage.Step Monitor.Call → Bytes
  | .call (.output chunk) => chunk
  | .call (.input _) | .call .exit | .call .stop | .sleep _ | .hold | .release => []

/-- The copy of the output that a user wants, each chunk as it is read. -/
def copy (options : Options) (steps : List (Stage.Step Monitor.Call)) : Bytes :=
  if options.tee then steps.flatMap outputIn else []

/-- What a watch leaves behind. -/
structure Outcome where
  stage : Stage Monitor Job
  directory : Directory
  copied : Bytes
  log : List Log.Line

/-- The keystrokes that a script gives time to read, and the line on those that cannot be read. -/
def keystrokes (options : Options) (d : Directory) (script : List Happening) :
    Bytes × List Log.Line :=
  match options.input with
  | none => ([], [])
  | some path =>
    if hasWait script then
      match d.read path with
      | .ok keys => (keys, [])
      | .error error => ([], [noInput path error])
    else ([], [])

/-- Watches a script. -/
def play (e : Equipment) (options : Options) (clock : Nat → Int) (d : Directory)
    (script : List Happening) : Outcome :=
  let keys := keystrokes options d script
  let reading := scriptSteps keys.1 script
  let watched := steps e.cfg options clock e.begin reading
  let ending := steps e.cfg options clock watched.1 (teardown e.cfg)
  let done := performAll d (.log (begun options) :: keys.2.map Act.log ++ watched.2
    ++ .log closed :: ending.2 ++ [.log (ended ending.1.state.classifier.status)])
  { stage := ending.1, directory := done.1, copied := copy options reading, log := done.2 }

/-- Watches a script with the settings given. -/
def run (settings : Settings) (options : Options) (clock : Nat → Int) (d : Directory)
    (script : List Happening) : Except Command.Failure Outcome :=
  (equip settings).map fun e => play e options clock d script

end TerminalSession.Watch
