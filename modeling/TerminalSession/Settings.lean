import TerminalSession.Config
import TerminalSession.Failure

/-!
# Settings

The settings a user can make, as written: any of them may be missing, which leaves its default, and
any may hold a number that makes no sense. The functions called `check` make configurations of them
that components work with; the first fault in a fixed order is the one reported. A component that is
begun needs more: something for its timers to run on, and room for its window.
-/

namespace TerminalSession

set_option autoImplicit false

/-- Settings of the classifier. Times are in milliseconds. -/
structure Settings.Classifier where
  idleTimeout : Nat := 10000
  debounce : Nat := 500
  windowBytes : Nat := 4096
  promptLines : Nat := 3
  deriving DecidableEq, Repr

/-- Settings of the recorder. -/
structure Settings.Recorder where
  flushThreshold : Nat := 1024
  flushInterval : Nat := 5000
  deriving DecidableEq, Repr

/-- Limits on what a summary is made from, in characters, and on how many learnings are carried over
to a new session. -/
structure Settings.Summary where
  titleContext : Nat := 2000
  learningsContext : Nat := 4000
  titleLength : Nat := 80
  /-- Less output than this has no title. -/
  titleMinimum : Nat := 50
  /-- A shorter transcript has no learnings. -/
  learningsMinimum : Nat := 100
  learningsKept : Nat := 10
  deriving DecidableEq, Repr

/-- All settings. -/
structure Settings where
  /-- How many jobs may wait for the worker. -/
  queue : Nat := 1024
  classifier : Settings.Classifier := {}
  recorder : Settings.Recorder := {}
  summary : Settings.Summary := {}
  deriving DecidableEq, Repr

namespace Settings

/-- Checks the classifier's settings. -/
def Classifier.check (s : Settings.Classifier) : Except Fault TerminalSession.Classifier.Config :=
  if idle : 0 < s.idleTimeout then
    if window : 0 < s.windowBytes then
      if lines : 0 < s.promptLines then
        .ok ⟨s.idleTimeout, s.debounce, s.windowBytes, s.promptLines, idle, window, lines⟩
      else .error .promptLines
    else .error .windowBytes
  else .error .idleTimeout

/-- Checks the recorder's settings. -/
def Recorder.check (s : Settings.Recorder) : Except Fault TerminalSession.Recorder.Config :=
  if threshold : 0 < s.flushThreshold then
    if interval : 0 < s.flushInterval then
      .ok ⟨s.flushThreshold, s.flushInterval, threshold, interval⟩
    else .error .flushInterval
  else .error .flushThreshold

/-- Checks the limits of a summary: of those that cut something off, none may be zero. -/
def Summary.check (s : Settings.Summary) : Except Fault Unit :=
  if s.titleContext = 0 || s.learningsContext = 0 || s.titleLength = 0 || s.learningsKept = 0 then
    .error .summaryLimit
  else .ok ()

/-- Checks the settings of a whole session. -/
def checkMonitor (s : Settings) : Except Fault Monitor.Config := do
  let classifier ← s.classifier.check
  let recorder ← s.recorder.check
  .ok { classifier, recorder }

/-- Checks all settings. -/
def check (s : Settings) : Except Fault Unit := do
  let _ ← s.checkMonitor
  s.summary.check

/-- A checked configuration for a component whose timers need something to run on. -/
def forComponent {α : Type} (timers : Bool) (checked : Except Fault α) : Except Failure α :=
  match checked with
  | .error fault => .error (.invalidSettings fault)
  | .ok config => if timers then .ok config else .error .noTimers

/-- The largest window that there can be room for, in bytes. -/
def largestWindow : Nat := 0x7FFFFFFFFFFFFFFF

/-- Checks that there can be room for a classifier's window. -/
def checkRoom (cfg : TerminalSession.Classifier.Config) : Except Excess Unit :=
  if cfg.windowBytes ≤ largestWindow then .ok () else .error .window

/-- The configuration of a classifier that is begun. -/
def forClassifier (timers : Bool) (s : Settings) :
    Except Failure TerminalSession.Classifier.Config := do
  let cfg ← forComponent timers s.classifier.check
  (checkRoom cfg).mapError Failure.noRoom
  return cfg

/-- The configuration of a recorder that is begun. -/
def forRecorder (timers : Bool) (s : Settings) : Except Failure TerminalSession.Recorder.Config :=
  forComponent timers s.recorder.check

/-- The configuration of a monitor that is begun. -/
def forMonitor (timers : Bool) (s : Settings) : Except Failure Monitor.Config := do
  let cfg ← forComponent timers s.checkMonitor
  (checkRoom cfg.classifier).mapError Failure.noRoom
  return cfg

end Settings

end TerminalSession
