import TerminalSession.Component
import TerminalSession.Config
import TerminalSession.Escape.Strip
import TerminalSession.Prompt
import TerminalSession.Record
import TerminalSession.Text.Lines
import TerminalSession.Utf8

/-!
# The classifier

Judges what a session is doing from its output. It keeps the last bytes of output and looks at the
last lines of their text: if they read like a prompt the session needs input, otherwise it is
active. A timer moves an active session to idle once it has been silent for the idle timeout.

Every change of status is debounced: within the debounce interval of the last accepted change a
further one is discarded, not deferred, so that output which flickers between prompt and no prompt
causes no flurry of changes. An exited session changes no more.

The timer sleeps until the deadline it knew when it went to sleep. Output puts the deadline off and
leaves the timer alone; it then wakes early and goes back to sleep. This shows only where two timers
go off at one instant, as the one that has slept longer goes first.
-/

namespace TerminalSession

set_option autoImplicit false

/-- A classifier's state. -/
structure Classifier where
  status : Status
  /-- The latest output, at most as much as the window holds. -/
  window : Bytes
  /-- When output last came; the beginning if none has. -/
  lastOutput : Nat
  /-- When a change of status was last accepted. -/
  lastChange : Option Nat
  /-- When the session's silence is next judged. -/
  deadline : Nat
  /-- When the timer wakes. -/
  wake : Nat
  stopped : Bool
  deriving DecidableEq, Repr

namespace Classifier

/-- What a classifier can be told. -/
inductive Call where
  | output (data : Bytes)
  /-- The session's process has exited. -/
  | exit
  | stop

/-- What happens in a classifier. -/
inductive Event where
  /-- A change of status was accepted. -/
  | changed (time : Nat) (change : Change)
  /-- A change of status came too soon after another. -/
  | debounced (time : Nat) (change : Change)
  /-- An active session has been silent for at least the idle timeout. -/
  | silent (time duration : Nat)
  | stopped
  deriving DecidableEq, Repr

/-- The job that an event submits: accepted changes are told. -/
def Event.job? : Event → Option Job
  | .changed _ change => some (.notify change)
  | .debounced .. | .silent .. | .stopped => none

/-- A classifier begun at an instant. -/
def start (cfg : Config) (now : Nat) : Classifier :=
  { status := .initial, window := [], lastOutput := now, lastChange := none,
    deadline := now + cfg.idleTimeout, wake := now + cfg.idleTimeout, stopped := false }

/-- The last bytes of output, at most so many. -/
def tailWindow (capacity : Nat) (output : Bytes) : Bytes := output.drop (output.length - capacity)

/-- What the end of the output says about the session. -/
def candidate (cfg : Config) (window : Bytes) : Status :=
  let tail := Text.lastLines (Utf8.decode window) cfg.promptLines
  if Prompt.isPrompt (Escape.strip tail) then .needsInput else .active

/-- Whether a change was accepted less than the debounce interval ago. -/
def isDebounced (cfg : Config) (now : Nat) (c : Classifier) : Bool :=
  match c.lastChange with
  | some last => now - last < cfg.debounce
  | none => false

/-- Changes the status, unless it is that already, the session has exited, or a change was accepted
just now. -/
def setStatus (cfg : Config) (now : Nat) (status : Status) (c : Classifier) :
    Classifier × List Event :=
  if status = c.status || c.status = .exited then (c, [])
  else
    let change : Change := { previous := c.status, current := status }
    if c.isDebounced cfg now then (c, [.debounced now change])
    else ({ c with status, lastChange := some now }, [.changed now change])

/-- Takes a chunk of output. An empty one is none. -/
def output (cfg : Config) (now : Nat) (data : Bytes) (c : Classifier) : Classifier × List Event :=
  if data.isEmpty || c.stopped then (c, [])
  else
    let window := tailWindow cfg.windowBytes (c.window ++ data)
    setStatus cfg now (candidate cfg window)
      { c with window, lastOutput := now, deadline := now + cfg.idleTimeout }

/-- Notes that the session's process has exited. -/
def exit (cfg : Config) (now : Nat) (c : Classifier) : Classifier × List Event :=
  if c.stopped then (c, []) else setStatus cfg now .exited c

/-- Stops the classifier for good. -/
def stop (c : Classifier) : Classifier × List Event :=
  if c.stopped then (c, []) else ({ c with stopped := true }, [.stopped])

/-- What a call does. -/
def call (cfg : Config) (now : Nat) : Call → Classifier → Classifier × List Event
  | .output data => output cfg now data
  | .exit => exit cfg now
  | .stop => stop

/-- When the timer goes off. -/
def alarm (c : Classifier) : Option Nat := if c.stopped then none else some c.wake

/-- Judges the session's silence once its deadline has come. -/
def judge (cfg : Config) (now : Nat) (c : Classifier) : Classifier × List Event :=
  if c.status = .active && cfg.idleTimeout ≤ now - c.lastOutput then
    let moved := setStatus cfg now .idle c
    (moved.1, .silent now (now - c.lastOutput) :: moved.2)
  else (c, [])

/-- The timer wakes: before the deadline it goes back to sleep until then, and at the deadline it
judges the session and sleeps for another idle timeout. -/
def ring (cfg : Config) (now : Nat) (c : Classifier) : Classifier × List Event :=
  if now < c.deadline then ({ c with wake := c.deadline }, [])
  else
    let judged := judge cfg now c
    let next := now + cfg.idleTimeout
    ({ judged.1 with deadline := next, wake := next }, judged.2)

/-! ## Whether it has stopped

A classifier stops when it is told to, and by nothing else. -/

theorem setStatus_stopped (cfg : Config) (now : Nat) (status : Status) (c : Classifier) :
    (setStatus cfg now status c).1.stopped = c.stopped := by
  simp only [setStatus]
  split
  · rfl
  · split
    · rfl
    · rfl

theorem output_stopped (cfg : Config) (now : Nat) (data : Bytes) (c : Classifier) :
    (output cfg now data c).1.stopped = c.stopped := by
  unfold output
  split
  · rfl
  · exact setStatus_stopped ..

theorem exit_stopped (cfg : Config) (now : Nat) (c : Classifier) :
    (exit cfg now c).1.stopped = c.stopped := by
  unfold exit
  split
  · rfl
  · exact setStatus_stopped ..

theorem judge_stopped (cfg : Config) (now : Nat) (c : Classifier) :
    (judge cfg now c).1.stopped = c.stopped := by
  unfold judge
  split
  · exact setStatus_stopped ..
  · rfl

theorem ring_stopped (cfg : Config) (now : Nat) (c : Classifier) :
    (ring cfg now c).1.stopped = c.stopped := by
  unfold ring
  split
  · rfl
  · exact judge_stopped cfg now c

theorem stop_stopped (c : Classifier) : (stop c).1.stopped = true := by
  unfold stop
  split
  next h => exact h
  next => rfl

/-! ## The component -/

theorem alarm_ring (cfg : Config) {now next : Nat} {c : Classifier}
    (_ : alarm c = some now) (h : alarm (ring cfg now c).1 = some next) : now < next := by
  have pos := cfg.idleTimeout_pos
  unfold ring at h
  split at h
  · simp only [alarm] at h
    split at h
    · cases h
    · cases h; assumption
  · simp only [alarm] at h
    split at h
    · cases h
    · cases h; omega

/-- The classifier as a component. -/
def component (cfg : Config) : Component Classifier Call Event Job where
  call := call cfg
  alarm := alarm
  ring := ring cfg
  job? := Event.job?
  alarm_ring := alarm_ring cfg

end Classifier

end TerminalSession
