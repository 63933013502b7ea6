import TerminalSession.Recorder
import TerminalSession.Stage

/-!
# What a recorder is fed, and the transcript it ought to give

The transcript of a session is fixed by what is shown and typed, and by nothing else: not by when,
nor by how often the buffer is handed over. This module says which transcript that is, without a
buffer, a counter of bytes or a clock.

It does so in two layers. `arrivals` turns what comes in into texts: a chunk of output becomes the
cleaned text of what is not held back, a chunk of input its own text, and the end of the output
whatever text was still held. `arrived` is the same before the end, and `heldThrough` what is then
held back. `collapse` turns texts into records: a frame shown again is counted, and the count stands
before the next text that is shown, or at the very end.

The buffered recorder is held to `transcript` in `Proofs/Recorder/Transcript`; nothing is proved of
it here.
-/

set_option autoImplicit false

namespace TerminalSession.Recorder

/-- Something that comes in. -/
inductive Feed where
  | output (data : Bytes)
  | input (data : Bytes)
  deriving DecidableEq, Repr

/-- What comes in with a call. -/
def Call.feed? : Call → Option Feed
  | .output data => some (.output data)
  | .input data => some (.input data)
  | .flush | .stop => none

/-- What comes in with a step. -/
def stepFeed? : Stage.Step Call → Option Feed
  | .call i => i.feed?
  | .sleep _ | .hold | .release => none

/-- All that comes in, in order; everything else about the steps is left out. -/
def feeds (steps : List (Stage.Step Call)) : List Feed := steps.filterMap stepFeed?

theorem feeds_cons (step : Stage.Step Call) (steps : List (Stage.Step Call)) :
    feeds (step :: steps) = (stepFeed? step).toList ++ feeds steps := by
  cases hfeed : stepFeed? step with
  | none => rw [feeds, List.filterMap_cons_none hfeed, feeds, Option.toList_none, List.nil_append]
  | some feed =>
    rw [feeds, List.filterMap_cons_some hfeed, feeds, Option.toList_some, List.singleton_append]

/-- A text on its way into the transcript. -/
inductive Arrival where
  | shown (text : List Char)
  | typed (text : List Char)
  deriving DecidableEq, Repr

/-- The text of a chunk of output that comes after bytes held back. -/
def shownText (held data : Bytes) : List Char := clean (splitTail (held ++ data)).1

/-- What is held back after a chunk of output. -/
def heldAfter (held data : Bytes) : Bytes := (splitTail (held ++ data)).2

/-- What arrives when the output ends: the text of what is held back, unless it begins an escape
sequence. -/
def lastArrivals : Bytes → List Arrival
  | [] => []
  | first :: rest =>
    if first = Escape.escByte then [] else [.shown (clean (first :: rest))]

/-- The texts that arrive, given what is held back at first. -/
def arrivals : Bytes → List Feed → List Arrival
  | held, [] => lastArrivals held
  | held, .output data :: coming =>
    .shown (shownText held data) :: arrivals (heldAfter held data) coming
  | held, .input data :: coming =>
    if data.isEmpty || isControlKey data then arrivals held coming
    else .typed (Utf8.decode data) :: arrivals held coming

/-- The texts that arrive while more may come in. -/
def arrived : Bytes → List Feed → List Arrival
  | _, [] => []
  | held, .output data :: coming =>
    .shown (shownText held data) :: arrived (heldAfter held data) coming
  | held, .input data :: coming =>
    if data.isEmpty || isControlKey data then arrived held coming
    else .typed (Utf8.decode data) :: arrived held coming

/-- What is held back then. -/
def heldThrough : Bytes → List Feed → Bytes
  | held, [] => held
  | held, .output data :: coming => heldThrough (heldAfter held data) coming
  | held, .input _ :: coming => heldThrough held coming

/-- The record of a run of repeats; none if nothing was repeated. -/
def countRecord : Nat → List Record
  | 0 => []
  | repeats + 1 => [.repeated (repeats + 1)]

/-- The records of texts, given the text shown last and how often it has been repeated. -/
def collapse : List Char → Nat → List Arrival → List Record
  | _, repeats, [] => countRecord repeats
  | last, repeats, .typed text :: coming => .typed text :: collapse last repeats coming
  | last, repeats, .shown text :: coming =>
    if text.isEmpty then collapse last repeats coming
    else if Frame.isFrame text && text = last then collapse last (repeats + 1) coming
    else countRecord repeats ++ .shown text :: collapse text 0 coming

/-- The transcript of all that comes in. -/
def transcript (feeds : List Feed) : List Record := collapse [] 0 (arrivals [] feeds)

/-! ## What came in before, and what comes in after -/

theorem arrived_append (held : Bytes) (before after : List Feed) :
    arrived held (before ++ after) =
      arrived held before ++ arrived (heldThrough held before) after := by
  induction before generalizing held with
  | nil => rfl
  | cons feed before ih =>
    cases feed with
    | output data =>
      rw [List.cons_append, arrived, arrived, heldThrough, ih]
      rfl
    | input data =>
      rw [List.cons_append, arrived, arrived, heldThrough, ih]
      split
      · rfl
      · rfl

theorem arrivals_append (held : Bytes) (before after : List Feed) :
    arrivals held (before ++ after) =
      arrived held before ++ arrivals (heldThrough held before) after := by
  induction before generalizing held with
  | nil => rfl
  | cons feed before ih =>
    cases feed with
    | output data =>
      rw [List.cons_append, arrivals, arrived, heldThrough, ih]
      rfl
    | input data =>
      rw [List.cons_append, arrivals, arrived, heldThrough, ih]
      split
      · rfl
      · rfl

theorem heldThrough_append (held : Bytes) (before after : List Feed) :
    heldThrough held (before ++ after) = heldThrough (heldThrough held before) after := by
  induction before generalizing held with
  | nil => rfl
  | cons feed before ih =>
    cases feed with
    | output data => exact ih _
    | input data => exact ih held

/-! ## A chunk of output in these words -/

/-- A running recorder shows the text of a chunk, and holds back what `heldAfter` says. -/
theorem output_of_running (cfg : Config) (now : Nat) (data : Bytes) {r : Recorder}
    (h : r.stopped = false) :
    output cfg now data r =
      showText cfg now (shownText r.held data) { r with held := heldAfter r.held data } := by
  simp only [output, h, Bool.false_eq_true, if_false, shownText, heldAfter]

end TerminalSession.Recorder
