import TerminalSession.Proofs.Decimal.Numeral
import TerminalSession.Proofs.Escape.Cut
import TerminalSession.Proofs.Recorder.Repeats
import TerminalSession.Proofs.Text.Visible

/-!
# Output is decoded as one

A recorder decodes what it cleans at each chunk of output by itself, and holds back what the chunk
leaves unfinished. Nothing of this shows in the text: the texts of what was cleaned, and of what is
still held, are the text of all output (`decode_runParts`). So a character is never taken apart by a
cut, and output that is a text has no replacement characters in its records.

A part is what `output` cleans at its step, and what is behind the part is then held back
(`output_of_mem_stepRaw`). So the law for one step (`decode_step`) is that of a cut
(`Escape.decode_tailStart`). A run carries it from step to step with whatever is to come behind
(`decode_run`), as only that decides how a character held back is read.

A tail too long to be held is cleaned with the rest, and the law ends there: `Holdable` is asked of
every chunk.
-/

set_option autoImplicit false

namespace TerminalSession.Recorder

open Utf8 (encode decode replacement)

/-- The bytes of a chunk of output. -/
def Feed.output? : Feed → Option Bytes
  | .output data => some data
  | .input _ => none

/-- All output that comes in, joined. -/
def outputs (feeds : List Feed) : Bytes := (feeds.filterMap Feed.output?).flatten

/-- What lies before a recorder when a step brings output: what was held back, and the chunk. -/
def stepRaw (r : Recorder) : Stage.Step Call → List Bytes
  | .call (.output data) => if r.stopped then [] else [r.held ++ data]
  | .call (.input _) | .call .flush | .call .stop | .sleep _ | .hold | .release => []

/-- What lies before it at each chunk of output in a run. -/
def runRaws (cfg : Config) (s : Stage Recorder Job) : List (Stage.Step Call) → List Bytes
  | [] => []
  | step :: rest => stepRaw s.state step ++ runRaws cfg (s.step (component cfg) step).1 rest

/-- What it cleans of that. -/
def runParts (cfg : Config) (s : Stage Recorder Job) (steps : List (Stage.Step Call)) :
    List Bytes :=
  (runRaws cfg s steps).map fun raw => (splitTail raw).1

/-- Output of which the tail is short enough to be held back. -/
def Holdable (raw : Bytes) : Prop := raw.length - Escape.tailStart raw ≤ holdLimit

instance (raw : Bytes) : Decidable (Holdable raw) :=
  inferInstanceAs (Decidable (raw.length - Escape.tailStart raw ≤ holdLimit))

/-! ## Chunk by chunk -/

/-- What lies before a recorder at each chunk, without the recorder. -/
def raws : Bytes → List Feed → List Bytes
  | _, [] => []
  | held, .output data :: coming => (held ++ data) :: raws (heldAfter held data) coming
  | held, .input _ :: coming => raws held coming

theorem raws_append (held : Bytes) (before after : List Feed) :
    raws held (before ++ after) = raws held before ++ raws (heldThrough held before) after := by
  induction before generalizing held with
  | nil => rfl
  | cons feed before ih =>
    cases feed with
    | output data =>
      rw [List.cons_append, raws, raws, heldThrough, ih]
      rfl
    | input data => exact ih held

theorem stepRaw_eq {r : Recorder} (h : r.stopped = false) (step : Stage.Step Call) :
    stepRaw r step = raws r.held (stepFeed? step).toList := by
  cases step with
  | sleep ms => rfl
  | hold => rfl
  | release => rfl
  | call i =>
    cases i with
    | stop => rfl
    | flush => rfl
    | input data => rfl
    | output data =>
      rw [stepRaw, h]
      rfl

theorem runRaws_eq (cfg : Config) {s : Stage Recorder Job} {steps : List (Stage.Step Call)}
    (running : .call .stop ∉ steps) (h : s.state.stopped = false) :
    runRaws cfg s steps = raws s.state.held (feeds steps) := by
  induction steps generalizing s with
  | nil => rfl
  | cons step steps ih =>
    obtain ⟨hne, hrest⟩ := not_or.mp fun hm => running (List.mem_cons.mpr hm)
    obtain ⟨-, hheld, hstopped⟩ := step_due cfg (Ne.symm hne) h []
    rw [runRaws, ih hrest hstopped, hheld, stepRaw_eq h, feeds_cons, raws_append]

/-- **A part is what the recorder cleans at that step.** A chunk that brings something to a recorder
is split: the text of the part is shown, and the rest is held back. -/
theorem output_of_mem_stepRaw (cfg : Config) (now : Nat) {data : Bytes} {r : Recorder} {raw : Bytes}
    (hraw : raw ∈ stepRaw r (.call (.output data))) :
    output cfg now data r =
      showText cfg now (clean (splitTail raw).1) { r with held := (splitTail raw).2 } := by
  rw [stepRaw] at hraw
  split at hraw
  next => cases hraw
  next hrunning =>
    rw [List.mem_singleton.mp hraw]
    exact output_of_running cfg now data (Bool.eq_false_iff.mpr hrunning)

/-- What is cleaned and what is held back are decoded apart, whatever comes next. -/
theorem decode_splitTail {raw : Bytes} (h : Holdable raw) (next : Bytes) :
    decode (splitTail raw).1 ++ decode ((splitTail raw).2 ++ next) = decode (raw ++ next) := by
  have hsplit : splitTail raw = (raw.take (Escape.tailStart raw), raw.drop (Escape.tailStart raw)) :=
    if_pos h
  rw [hsplit]
  exact Escape.decode_tailStart raw next

/-- One step: what is cleaned in it and what is then held back are decoded as what was held before
and what comes in, with whatever comes next. -/
theorem decode_step (cfg : Config) {s : Stage Recorder Job} {step : Stage.Step Call}
    (running : step ≠ .call .stop) (h : s.state.stopped = false)
    (fits : ∀ raw ∈ stepRaw s.state step, Holdable raw) (next : Bytes) :
    ((stepRaw s.state step).map fun raw => (splitTail raw).1).flatMap decode ++
        decode ((s.step (component cfg) step).1.state.held ++ next) =
      decode (s.state.held ++ outputs (stepFeed? step).toList ++ next) := by
  have hheld := (step_due cfg running h []).2.1
  -- Without output nothing is cleaned, and what is held back stays.
  have hquiet (hsame : (s.step (component cfg) step).1.state.held = s.state.held) :
      decode ((s.step (component cfg) step).1.state.held ++ next) =
        decode (s.state.held ++ [] ++ next) := by
    rw [hsame, List.append_nil]
  cases step with
  | sleep ms => exact hquiet hheld
  | hold => exact hquiet hheld
  | release => exact hquiet hheld
  | call i =>
    cases i with
    | stop => exact absurd rfl running
    | flush => exact hquiet hheld
    | input data => exact hquiet hheld
    | output data =>
      have hraw : s.state.held ++ data ∈ stepRaw s.state (.call (.output data)) := by
        rw [stepRaw, h]
        exact List.mem_singleton_self _
      have hsplit : (s.step (component cfg) (.call (.output data))).1.state.held =
          (splitTail (s.state.held ++ data)).2 := by
        show (output cfg s.now data s.state).1.held = _
        rw [output_of_mem_stepRaw cfg s.now hraw]
        exact held_eq_of_aside (showText_aside cfg s.now _ _)
      have houtputs : outputs [.output data] = data := List.append_nil data
      have hone : stepRaw s.state (.call (.output data)) = [s.state.held ++ data] := by
        rw [stepRaw, h]
        rfl
      rw [hone, hsplit, List.map_singleton, List.flatMap_singleton, decode_splitTail (fits _ hraw)]
      exact congrArg (fun chunk => decode (s.state.held ++ chunk ++ next)) houtputs.symm

/-- **Chunks are decoded as one**, with whatever comes next. -/
theorem decode_run (cfg : Config) {s : Stage Recorder Job} {steps : List (Stage.Step Call)}
    (running : .call .stop ∉ steps) (h : s.state.stopped = false)
    (fits : ∀ raw ∈ runRaws cfg s steps, Holdable raw) (next : Bytes) :
    (runParts cfg s steps).flatMap decode ++
        decode ((s.run (component cfg) steps).1.state.held ++ next) =
      decode (s.state.held ++ outputs (feeds steps) ++ next) := by
  induction steps generalizing s with
  | nil =>
    show decode (s.state.held ++ next) = decode (s.state.held ++ [] ++ next)
    rw [List.append_nil]
  | cons step steps ih =>
    obtain ⟨hne, hrest⟩ := not_or.mp fun hm => running (List.mem_cons.mpr hm)
    obtain ⟨hfirst, hothers⟩ := List.forall_mem_append.mp fits
    have hstopped := (step_due cfg (Ne.symm hne) h []).2.2
    have hstep := decode_step cfg (Ne.symm hne) h hfirst (outputs (feeds steps) ++ next)
    have hparts : runParts cfg s (step :: steps) =
        ((stepRaw s.state step).map fun raw => (splitTail raw).1) ++
          runParts cfg (s.step (component cfg) step).1 steps := List.map_append
    have houtputs : outputs (feeds (step :: steps)) =
        outputs (stepFeed? step).toList ++ outputs (feeds steps) := by
      rw [feeds_cons, outputs, List.filterMap_append, List.flatten_append]
      rfl
    rw [hparts, houtputs, List.flatMap_append, List.append_assoc]
    refine (congrArg (_ ++ ·) (ih hrest hstopped hothers)).trans ?_
    simpa only [List.append_assoc] using hstep

/-! ## The records -/

theorem shown_countRecord (repeats : Nat) :
    (countRecord repeats).filterMap Record.shown? = [] := by
  cases repeats with
  | zero => rfl
  | succ repeats => rfl

/-- The texts in the records are among those that arrive to be shown, in order. -/
theorem shown_collapse_sublist (last : List Char) (repeats : Nat) (coming : List Arrival) :
    ((collapse last repeats coming).filterMap Record.shown?).Sublist
      (coming.filterMap Arrival.shown?) := by
  induction coming generalizing last repeats with
  | nil =>
    rw [collapse, shown_countRecord]
    exact .slnil
  | cons arrival coming ih =>
    cases arrival with
    | typed text => exact ih last repeats
    | shown text =>
      rw [collapse]
      split
      · exact (ih last repeats).cons text
      · split
        · exact (ih last (repeats + 1)).cons text
        · rw [List.filterMap_append, shown_countRecord]
          exact (ih text 0).cons_cons text

/-- What arrives to be shown before the end are the texts of what was cleaned. -/
theorem shown_arrived (held : Bytes) (feeds : List Feed) :
    (arrived held feeds).filterMap Arrival.shown? =
      (raws held feeds).map fun raw => clean (splitTail raw).1 := by
  induction feeds generalizing held with
  | nil => rfl
  | cons feed feeds ih =>
    cases feed with
    | output data => exact congrArg (shownText held data :: ·) (ih (heldAfter held data))
    | input data =>
      rw [arrived]
      split
      · exact ih held
      · exact ih held

theorem replacement_not_mem_repeated (count : Nat) :
    replacement ∉ (Record.repeated count).text := by
  intro hmem
  have hnone : Decimal.isDigit replacement = false := by decide +kernel
  rcases List.mem_append.mp hmem with hmem | hmem
  · rcases List.mem_append.mp hmem with hmem | hmem
    · exact absurd hmem (by decide +kernel)
    · exact ne_true_of_eq_false hnone (Decimal.isDigit_of_mem_write count replacement hmem)
  · exact absurd hmem (by decide +kernel)

/-- What a recorder has handed over or still buffers was buffered before, or comes of what arrived.
-/
theorem mem_recorded (cfg : Config) {s : Stage Recorder Job} {steps : List (Stage.Step Call)}
    (running : .call .stop ∉ steps) (h : s.state.stopped = false) {record : Record}
    (hmem : record ∈ handedOver (s.run (component cfg) steps).2 ++
      (s.run (component cfg) steps).1.state.buffer.map (·.record)) :
    record ∈ s.state.buffer.map (·.record) ∨
      record ∈ collapse s.state.lastShown s.state.repeats (arrived s.state.held (feeds steps)) := by
  have hdue := (run_due cfg running h []).1
  rw [List.append_nil, due, ← List.append_assoc] at hdue
  have hin := List.mem_append_left
    (collapse (s.run (component cfg) steps).1.state.lastShown
      (s.run (component cfg) steps).1.state.repeats []) hmem
  rw [hdue] at hin
  exact List.mem_append.mp hin

/-- **Holding back makes decoding independent of chunks.** Whatever a running recorder is told, if no
tail is too long to be held,

- the texts of the parts it cleans, and of what it holds back in the end, are the text of all its
  output;
- where that output is the beginning of a text without replacement characters, no record of output
  that it makes has one. -/
theorem decode_runParts (cfg : Config) {s : Stage Recorder Job} {steps : List (Stage.Step Call)}
    (running : .call .stop ∉ steps) (h : s.state.stopped = false)
    (fits : ∀ raw ∈ runRaws cfg s steps, Holdable raw) :
    (runParts cfg s steps).flatMap decode ++ decode (s.run (component cfg) steps).1.state.held =
        decode (s.state.held ++ outputs (feeds steps)) ∧
      ∀ text more, s.state.held ++ outputs (feeds steps) ++ more = encode text →
        replacement ∉ text →
        ∀ record ∈ handedOver (s.run (component cfg) steps).2 ++
            (s.run (component cfg) steps).1.state.buffer.map (·.record),
          record ∈ s.state.buffer.map (·.record) ∨
            (record.direction = .output → replacement ∉ record.text) := by
  refine ⟨?_, fun text more htext hclean record hmem => ?_⟩
  · have hparts := decode_run cfg running h fits []
    rwa [List.append_nil, List.append_nil] at hparts
  · refine (mem_recorded cfg running h hmem).imp_right fun hmade hdirection => ?_
    have hparts := decode_run cfg running h fits more
    rw [htext, Utf8.decode_encode] at hparts
    cases record with
    | typed text => cases hdirection
    | repeated count => exact replacement_not_mem_repeated count
    | shown text =>
      have hrecord := List.mem_filterMap.mpr ⟨_, hmade, (rfl : Record.shown? (.shown text) = _)⟩
      have hshown := (shown_collapse_sublist ..).subset hrecord
      rw [shown_arrived, ← runRaws_eq cfg running h] at hshown
      obtain ⟨raw, hraw, rfl⟩ := List.mem_map.mp hshown
      intro hbad
      -- Cleaning adds no character, so it would be one of the text.
      have hdecoded : replacement ∈ decode (splitTail raw).1 :=
        (Text.forTranscript_sublist _).subset hbad
      refine hclean (hparts ▸ List.mem_append_left _ (List.mem_flatMap.mpr ⟨_, ?_, hdecoded⟩))
      exact List.mem_map_of_mem hraw

/-- A text is cut twice inside a character, and once inside an escape sequence. -/
def halves : List (Stage.Step Call) :=
  [.call (.output [0x61, 0xC3]), .call (.input [0x79]), .sleep 1500,
    .call (.output [0xA9, 0x1B, 0x5B]), .call .flush, .call (.output [0x6D, 0x62, 0xE2])]

theorem decode_runParts_halves :
    .call .stop ∉ halves ∧
      (∀ raw ∈ runRaws smallBuffer (opening smallBuffer 0 1) halves, Holdable raw) ∧
      [[0x61], [0xC3, 0xA9], [0x1B, 0x5B, 0x6D, 0x62]].flatMap decode ++ decode [0xE2] =
        decode (outputs (feeds halves)) ∧
      ∀ record ∈ handedOver ((opening smallBuffer 0 1).run (component smallBuffer) halves).2,
        record.direction = .output → replacement ∉ record.text := by
  have running : .call .stop ∉ halves := by
    simp only [halves, List.mem_cons, List.not_mem_nil, Stage.Step.call.injEq, reduceCtorEq,
      or_self, not_false_eq_true]
  have fits : ∀ raw ∈ runRaws smallBuffer (opening smallBuffer 0 1) halves, Holdable raw := by
    decide +kernel
  obtain ⟨hparts, hrecords⟩ :=
    decode_runParts smallBuffer (s := opening smallBuffer 0 1) running rfl fits
  have hcleaned : runParts smallBuffer (opening smallBuffer 0 1) halves =
      [[0x61], [0xC3, 0xA9], [0x1B, 0x5B, 0x6D, 0x62]] := by decide +kernel
  have hheld : ((opening smallBuffer 0 1).run (component smallBuffer) halves).1.state.held =
      [0xE2] := by decide +kernel
  rw [hcleaned, hheld] at hparts
  have htext : outputs (feeds halves) ++ [0x82, 0xAC] =
      encode ['a', 'é', Escape.esc, '[', 'm', 'b', '€'] := by decide +kernel
  refine ⟨running, fits, hparts, fun record hmem hdirection => ?_⟩
  have hmade := hrecords _ _ htext (by decide +kernel) record (List.mem_append_left _ hmem)
  exact hmade.resolve_left List.not_mem_nil hdirection

end TerminalSession.Recorder
