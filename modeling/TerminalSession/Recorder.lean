import TerminalSession.Component
import TerminalSession.Config
import TerminalSession.Escape.Tail
import TerminalSession.Frame
import TerminalSession.Record
import TerminalSession.Text.Clean

/-!
# The recorder

Records what a session shows and what is typed into it. Output is cleaned, and a frame of an
animation that merely repeats what was shown last is counted instead of recorded; the count goes
into the transcript as a record of its own before the next thing shown.

Records are buffered and handed over in batches: when enough bytes have gathered, on a timer, on
demand, and at the end. A count of repeats takes up no bytes, as it never fills a buffer by itself.

Bytes at the end of a chunk that begin an escape sequence or a character are held back until the
next chunk, unless there are too many of them.
-/

namespace TerminalSession

set_option autoImplicit false

/-- A recorder's state. -/
structure Recorder where
  /-- The records not yet handed over, oldest first. -/
  buffer : List Stamped
  /-- How many bytes of text they hold, counts of repeats left out. -/
  bytes : Nat
  /-- The text shown last. -/
  lastShown : List Char
  /-- How often it was shown again and not recorded. -/
  repeats : Nat
  /-- The end of the output that waits for what follows it. -/
  held : Bytes
  /-- When the buffer is next handed over anyway. -/
  nextFlush : Nat
  stopped : Bool
  deriving DecidableEq, Repr

namespace Recorder

/-- What a recorder can be told. -/
inductive Call where
  | output (data : Bytes)
  | input (data : Bytes)
  | flush
  | stop

/-- What happens in a recorder. -/
inductive Event where
  /-- The buffer was handed over. -/
  | flushed (batch : List Stamped)
  /-- Repeated frames were summed up. -/
  | collapsed (count : Nat)
  /-- The output ended inside an escape sequence, of which so many bytes were left out. -/
  | cutOff (bytes : Nat)
  | stopped
  deriving DecidableEq, Repr

/-- The job that an event submits: batches are kept. -/
def Event.job? : Event → Option Job
  | .flushed batch => some (.persist batch)
  | .collapsed _ | .cutOff _ | .stopped => none

/-- A recorder begun at an instant. -/
def start (cfg : Config) (now : Nat) : Recorder :=
  { buffer := [], bytes := 0, lastShown := [], repeats := 0, held := [],
    nextFlush := now + cfg.flushInterval, stopped := false }

/-- Hands over the buffer, if anything is in it. -/
def flush (r : Recorder) : Recorder × List Event :=
  if r.buffer.isEmpty then (r, [])
  else ({ r with buffer := [], bytes := 0 }, [.flushed r.buffer])

/-- Buffers a text, and hands over the buffer if that fills it. -/
def append (cfg : Config) (now : Nat) (record : Record) (r : Recorder) : Recorder × List Event :=
  let r := { r with
    buffer := r.buffer ++ [{ time := now, record }]
    bytes := r.bytes + record.size }
  if cfg.flushThreshold ≤ r.bytes then flush r else (r, [])

/-- Buffers the count of repeats, if there were any. -/
def sumUp (now : Nat) (r : Recorder) : Recorder × List Event :=
  if r.repeats = 0 then (r, [])
  else
    let summary : Stamped := { time := now, record := .repeated r.repeats }
    ({ r with buffer := r.buffer ++ [summary], repeats := 0 },
      [.collapsed r.repeats])

/-- Records a cleaned text that was shown, or counts it if it repeats a frame. -/
def showText (cfg : Config) (now : Nat) (text : List Char) (r : Recorder) :
    Recorder × List Event :=
  if text.isEmpty then (r, [])
  else if Frame.isFrame text && text = r.lastShown then ({ r with repeats := r.repeats + 1 }, [])
  else
    let summed := sumUp now r
    let appended := append cfg now (.shown text) { summed.1 with lastShown := text }
    (appended.1, summed.2 ++ appended.2)

/-- The most bytes that are held back. -/
def holdLimit : Nat := 4096

/-- Splits output into what is cleaned now and what is held back. A tail too long to be held is
cleaned with the rest. -/
def splitTail (raw : Bytes) : Bytes × Bytes :=
  let cut := Escape.tailStart raw
  if raw.length - cut ≤ holdLimit then (raw.take cut, raw.drop cut) else (raw, [])

/-- The text of output as it is recorded. -/
def clean (bytes : Bytes) : List Char := Text.forTranscript (Utf8.decode bytes)

/-- Takes a chunk of output. -/
def output (cfg : Config) (now : Nat) (data : Bytes) (r : Recorder) : Recorder × List Event :=
  if r.stopped then (r, [])
  else
    let split := splitTail (r.held ++ data)
    showText cfg now (clean split.1) { r with held := split.2 }

/-- A control key pressed by itself. Keys that send more than one byte are not told apart from
text. -/
def isControlKey : Bytes → Bool
  | [b] => b < 0x20 && b != 0x0A && b != 0x0D
  | _ => false

/-- Takes a chunk of input. -/
def input (cfg : Config) (now : Nat) (data : Bytes) (r : Recorder) : Recorder × List Event :=
  if data.isEmpty || isControlKey data || r.stopped then (r, [])
  else append cfg now (.typed (Utf8.decode data)) r

/-- Hands over the buffer on demand. -/
def flushNow (r : Recorder) : Recorder × List Event := if r.stopped then (r, []) else flush r

/-- Records what is held back, now that nothing follows it. An escape sequence that was not finished
is left out. -/
def settleTail (cfg : Config) (now : Nat) (r : Recorder) : Recorder × List Event :=
  match r.held with
  | [] => (r, [])
  | first :: _ =>
    let emptied := { r with held := [] }
    if first = Escape.escByte then (emptied, [.cutOff r.held.length])
    else showText cfg now (clean r.held) emptied

/-- Stops the recorder for good: what it still owes is handed over. -/
def stop (cfg : Config) (now : Nat) (r : Recorder) : Recorder × List Event :=
  if r.stopped then (r, [])
  else
    let settled := settleTail cfg now { r with stopped := true }
    let summed := sumUp now settled.1
    let flushed := flush summed.1
    (flushed.1, settled.2 ++ summed.2 ++ flushed.2 ++ [.stopped])

/-- What a call does. -/
def call (cfg : Config) (now : Nat) : Call → Recorder → Recorder × List Event
  | .output data => output cfg now data
  | .input data => input cfg now data
  | .flush => flushNow
  | .stop => stop cfg now

/-- When the timer goes off. -/
def alarm (r : Recorder) : Option Nat := if r.stopped then none else some r.nextFlush

/-- The timer goes off: the buffer is handed over, and the next time is one interval later. -/
def ring (cfg : Config) (now : Nat) (r : Recorder) : Recorder × List Event :=
  let flushed := flush r
  ({ flushed.1 with nextFlush := now + cfg.flushInterval }, flushed.2)

/-! ## What is left aside, and whether it has stopped

Buffering leaves alone what is held back, the timer, and whether the recorder has stopped. So it
stops when it is told to, and by nothing else. -/

/-- The parts of a recorder that buffering a text leaves alone. -/
def aside (r : Recorder) : Bytes × Nat × Bool := (r.held, r.nextFlush, r.stopped)

theorem flush_aside (r : Recorder) : (flush r).1.aside = r.aside := by
  unfold flush
  split <;> rfl

theorem append_aside (cfg : Config) (now : Nat) (record : Record) (r : Recorder) :
    (append cfg now record r).1.aside = r.aside := by
  simp only [append]
  split
  · exact flush_aside _
  · rfl

theorem sumUp_aside (now : Nat) (r : Recorder) : (sumUp now r).1.aside = r.aside := by
  unfold sumUp
  split <;> rfl

theorem showText_aside (cfg : Config) (now : Nat) (text : List Char) (r : Recorder) :
    (showText cfg now text r).1.aside = r.aside := by
  unfold showText
  split
  · rfl
  · split
    · rfl
    · rw [append_aside]
      exact sumUp_aside now r

theorem held_eq_of_aside {r s : Recorder} (h : r.aside = s.aside) : r.held = s.held :=
  congrArg Prod.fst h

theorem stopped_eq_of_aside {r s : Recorder} (h : r.aside = s.aside) : r.stopped = s.stopped :=
  congrArg (·.2.2) h

theorem settleTail_aside (cfg : Config) (now : Nat) (r : Recorder) :
    (settleTail cfg now r).1.aside = ([], r.nextFlush, r.stopped) := by
  rw [settleTail]
  split
  next hheld => rw [aside, hheld]
  next =>
    split
    · rfl
    · exact showText_aside cfg now _ _

theorem output_stopped (cfg : Config) (now : Nat) (data : Bytes) (r : Recorder) :
    (output cfg now data r).1.stopped = r.stopped := by
  unfold output
  split
  · rfl
  · exact congrArg (·.2.2) (showText_aside cfg now _ _)

theorem input_stopped (cfg : Config) (now : Nat) (data : Bytes) (r : Recorder) :
    (input cfg now data r).1.stopped = r.stopped := by
  unfold input
  split
  · rfl
  · exact congrArg (·.2.2) (append_aside cfg now _ r)

theorem ring_stopped (cfg : Config) (now : Nat) (r : Recorder) :
    (ring cfg now r).1.stopped = r.stopped :=
  congrArg (·.2.2) (flush_aside r)

theorem stop_stopped (cfg : Config) (now : Nat) (r : Recorder) :
    (stop cfg now r).1.stopped = true := by
  unfold stop
  split
  next h => exact h
  next =>
    have hsettled := settleTail_aside cfg now { r with stopped := true }
    exact congrArg (·.2.2) ((flush_aside _).trans ((sumUp_aside now _).trans hsettled))

/-! ## The component -/

theorem alarm_ring (cfg : Config) {now next : Nat} {r : Recorder}
    (_ : alarm r = some now) (h : alarm (ring cfg now r).1 = some next) : now < next := by
  have pos := cfg.flushInterval_pos
  by_cases stopped : (flush r).1.stopped
  · simp [ring, alarm, stopped] at h
  · simp [ring, alarm, stopped] at h
    omega

/-- The recorder as a component. -/
def component (cfg : Config) : Component Recorder Call Event Job where
  call := call cfg
  alarm := alarm
  ring := ring cfg
  job? := Event.job?
  alarm_ring := alarm_ring cfg

end Recorder

end TerminalSession
