import TerminalSession.Proofs.Recorder.Transcript

/-!
# Counting repeated frames loses nothing

A frame that is shown again is counted, and the count is a record of its own. `restore` undoes this:
it puts as many copies of the text shown last in place of each count. What comes out are the texts
that were to be shown, all of them and in order (`restore_collapse`).

`Collapsed` says what records look like that cannot be made shorter: a count is at least one, stands
for repeats of a frame, and is followed by a text or by nothing; and a frame is never recorded again
right after itself. It speaks of what is at hand, given the text shown last, so that it follows the
recursion of `collapse`; `Collapsed.drop` reads it off at any place of a transcript.

Whether two texts that are no frames are equal does not matter here: each of them is recorded.
-/

set_option autoImplicit false

namespace TerminalSession

/-- The text that a record shows, if it is no count of others. -/
def Record.shown? : Record → Option (List Char)
  | .shown text => some text
  | .typed _ | .repeated _ => none

namespace Recorder

/-- The text that arrives to be shown. -/
def Arrival.shown? : Arrival → Option (List Char)
  | .shown text => some text
  | .typed _ => none

/-- The texts that arrive to be shown, but for empty ones. -/
def shownTexts (coming : List Arrival) : List (List Char) :=
  (coming.filterMap Arrival.shown?).filter (!·.isEmpty)

/-- The text that was shown last, if any was. -/
def lastShown? (records : List Record) : Option (List Char) :=
  (records.filterMap Record.shown?).getLast?

/-- The texts that records stand for: for a count, so many copies of the text shown last. -/
def restore : (last : List Char) → List Record → List (List Char)
  | _, [] => []
  | last, .typed _ :: more => restore last more
  | _, .shown text :: more => text :: restore text more
  | last, .repeated count :: more => List.replicate count last ++ restore last more

/-! ## Nothing is lost -/

theorem restore_countRecord (last : List Char) (repeats : Nat) (more : List Record) :
    restore last (countRecord repeats ++ more) =
      List.replicate repeats last ++ restore last more := by
  cases repeats with
  | zero => rfl
  | succ repeats => rfl

theorem shownTexts_shown (text : List Char) (coming : List Arrival) :
    shownTexts (.shown text :: coming) =
      if text.isEmpty then shownTexts coming else text :: shownTexts coming := by
  have hfirst : (Arrival.shown text :: coming).filterMap Arrival.shown? =
      text :: coming.filterMap Arrival.shown? := rfl
  rw [shownTexts, hfirst, List.filter_cons]
  cases text.isEmpty with
  | false => rfl
  | true => rfl

/-- **Records stand for the texts they were made of**, and for the repeats counted before. -/
theorem restore_collapse (last : List Char) (repeats : Nat) (coming : List Arrival) :
    restore last (collapse last repeats coming) =
      List.replicate repeats last ++ shownTexts coming := by
  induction coming generalizing last repeats with
  | nil =>
    have hcount := restore_countRecord last repeats []
    rwa [List.append_nil] at hcount
  | cons arrival coming ih =>
    cases arrival with
    | typed text => exact ih last repeats
    | shown text =>
      rw [shownTexts_shown, collapse]
      split
      next => exact ih last repeats
      next =>
        split
        next hrepeats =>
          have heq : text = last := of_decide_eq_true (Bool.and_eq_true_iff.mp hrepeats).2
          rw [ih, heq, List.replicate_succ', List.append_assoc, List.singleton_append]
        next => rw [restore_countRecord, restore, ih, List.replicate_zero, List.nil_append]

/-! ## Nothing is left to count -/

/-- Records with nothing left to count, after a text was shown last. -/
inductive Collapsed : (last : List Char) → List Record → Prop
  | nil (last : List Char) : Collapsed last []
  | typed {last : List Char} {more : List Record} (text : List Char) (rest : Collapsed last more) :
      Collapsed last (.typed text :: more)
  | shown {last text : List Char} {more : List Record}
      (differs : Frame.isFrame text = true → text ≠ last) (rest : Collapsed text more) :
      Collapsed last (.shown text :: more)
  | repeated {last : List Char} {count : Nat} {more : List Record} (pos : 1 ≤ count)
      (frame : Frame.isFrame last = true)
      (next : more = [] ∨ ∃ text rest, more = .shown text :: rest) (rest : Collapsed last more) :
      Collapsed last (.repeated count :: more)

/-- A count may stand before what is next, if it counts a frame. -/
theorem Collapsed.countRecord {last : List Char} {repeats : Nat} {more : List Record}
    (rest : Collapsed last more) (frame : repeats ≠ 0 → Frame.isFrame last = true)
    (next : more = [] ∨ ∃ text rest, more = .shown text :: rest) :
    Collapsed last (countRecord repeats ++ more) := by
  cases repeats with
  | zero => exact rest
  | succ repeats => exact .repeated (Nat.succ_pos repeats) (frame (Nat.succ_ne_zero _)) next rest

/-- Only frames are counted. -/
theorem collapsed_collapse {last : List Char} {repeats : Nat}
    (frame : repeats ≠ 0 → Frame.isFrame last = true) (coming : List Arrival) :
    Collapsed last (collapse last repeats coming) := by
  induction coming generalizing last repeats with
  | nil =>
    have hcount := (Collapsed.nil last).countRecord frame (.inl rfl)
    rwa [List.append_nil] at hcount
  | cons arrival coming ih =>
    cases arrival with
    | typed text => exact .typed text (ih frame)
    | shown text =>
      rw [collapse]
      split
      next => exact ih frame
      next =>
        split
        next hrepeats =>
          obtain ⟨hframe, heq⟩ := Bool.and_eq_true_iff.mp hrepeats
          exact ih fun _ => of_decide_eq_true heq ▸ hframe
        next hnew =>
          have hdiffers : Frame.isFrame text = true → text ≠ last := by
            intro hframe heq
            exact hnew (Bool.and_eq_true_iff.mpr ⟨hframe, decide_eq_true heq⟩)
          have hrest : Collapsed text (collapse text 0 coming) := ih fun hne => absurd rfl hne
          exact (Collapsed.shown hdiffers hrest).countRecord frame (.inr ⟨text, _, rfl⟩)

/-- What comes behind some records is collapsed, given the text shown last in them. -/
theorem Collapsed.drop {last : List Char} {before after : List Record}
    (h : Collapsed last (before ++ after)) :
    Collapsed ((lastShown? before).getD last) after := by
  induction before generalizing last with
  | nil => exact h
  | cons record before ih =>
    cases h with
    | typed text rest => exact ih rest
    | repeated pos frame next rest => exact ih rest
    | @shown _ text _ differs rest =>
      have hlast : (lastShown? (.shown text :: before)).getD last =
          (lastShown? before).getD text := by
        have hfirst : (Record.shown text :: before).filterMap Record.shown? =
            text :: before.filterMap Record.shown? := rfl
        rw [lastShown?, hfirst, List.getLast?_cons]
        rfl
      rw [hlast]
      exact ih rest

/-- Nothing is no frame, so a frame was shown. -/
theorem lastShown?_of_isFrame {records : List Record}
    (h : Frame.isFrame ((lastShown? records).getD []) = true) :
    ∃ text, lastShown? records = some text ∧ Frame.isFrame text = true := by
  cases hlast : lastShown? records with
  | none =>
    rw [hlast] at h
    exact absurd h (by decide)
  | some text =>
    rw [hlast] at h
    exact ⟨text, rfl, h⟩

/-! ## What a recorder comes to show -/

/-- The texts that a step brings a recorder to show: that of a chunk behind what was held, or that
of the tail when the recorder is stopped. -/
def stepShown (r : Recorder) : Stage.Step Call → List (List Char)
  | .call (.output data) => if r.stopped then [] else [shownText r.held data]
  | .call .stop => if r.stopped then [] else (lastArrivals r.held).filterMap Arrival.shown?
  | .call (.input _) | .call .flush | .sleep _ | .hold | .release => []

/-- The texts that a recorder comes to show in a run, empty ones included. -/
def runShown (cfg : Config) (s : Stage Recorder Job) : List (Stage.Step Call) → List (List Char)
  | [] => []
  | step :: rest => stepShown s.state step ++ runShown cfg (s.step (component cfg) step).1 rest

/-- A step shows what arrives to be shown with it. -/
theorem stepShown_eq {r : Recorder} {step : Stage.Step Call} (running : step ≠ .call .stop)
    (h : r.stopped = false) :
    stepShown r step = (arrived r.held (stepFeed? step).toList).filterMap Arrival.shown? := by
  cases step with
  | sleep ms => rfl
  | hold => rfl
  | release => rfl
  | call i =>
    cases i with
    | stop => exact absurd rfl running
    | flush => rfl
    | output data =>
      rw [stepShown, h]
      rfl
    | input data =>
      show [] = (arrived r.held [.input data]).filterMap Arrival.shown?
      rw [arrived]
      split
      · rfl
      · rfl

/-- **What a recorder comes to show is what arrives to be shown.** -/
theorem runShown_eq (cfg : Config) {s : Stage Recorder Job} {steps : List (Stage.Step Call)}
    (running : .call .stop ∉ steps) (h : s.state.stopped = false) :
    runShown cfg s (steps ++ [.call .stop]) =
      (arrivals s.state.held (feeds steps)).filterMap Arrival.shown? := by
  induction steps generalizing s with
  | nil =>
    show (if s.state.stopped then [] else _) ++ [] = _
    rw [h, List.append_nil]
    rfl
  | cons step steps ih =>
    obtain ⟨hne, hrest⟩ := not_or.mp fun hm => running (List.mem_cons.mpr hm)
    obtain ⟨-, hheld, hstopped⟩ := step_due cfg (Ne.symm hne) h []
    rw [feeds_cons, arrivals_append, List.filterMap_append, List.cons_append, runShown,
      ih hrest hstopped, hheld, stepShown_eq (Ne.symm hne) h]

/-! ## What a recorder hands over -/

/-- All records that a recorder has handed over at its end. -/
def recorded (cfg : Config) (now capacity : Nat) (steps : List (Stage.Step Call)) : List Record :=
  handedOver ((opening cfg now capacity).run (component cfg) (steps ++ [.call .stop, .release])).2

/-- **Counting repeats is lossless and leaves nothing to count.** Whatever a recorder is told before
it is stopped, the records it has handed over

- are all kept, in order, by a worker who drops no batch;
- stand for the texts that it came to show, the held tail included, without the empty ones;
- hold a count only where frames were repeated: at least one, right before a text that is shown or
  at the very end, and after a frame that was shown last;
- never show a frame again right after itself, whatever was typed in between. -/
theorem repeats_restored (cfg : Config) (now capacity : Nat) (steps : List (Stage.Step Call))
    (running : .call .stop ∉ steps) :
    ((ending cfg now capacity steps).worker.dropped = 0 →
      (keptBatches (ending cfg now capacity steps)).flatten.map (·.record) =
        recorded cfg now capacity steps) ∧
    restore [] (recorded cfg now capacity steps) =
      (runShown cfg (opening cfg now capacity) (steps ++ [.call .stop])).filter (!·.isEmpty) ∧
    (∀ before count after, recorded cfg now capacity steps = before ++ .repeated count :: after →
      1 ≤ count ∧ (after = [] ∨ ∃ text more, after = .shown text :: more) ∧
        ∃ text, lastShown? before = some text ∧ Frame.isFrame text = true) ∧
    ∀ before text after, recorded cfg now capacity steps = before ++ .shown text :: after →
      Frame.isFrame text = true → lastShown? before ≠ some text := by
  have hrecorded : recorded cfg now capacity steps = collapse [] 0 (arrivals [] (feeds steps)) :=
    handedOver_to_end cfg now capacity running
  have hcollapsed : Collapsed [] (recorded cfg now capacity steps) := by
    rw [hrecorded]
    exact collapsed_collapse (fun hne => absurd rfl hne) _
  refine ⟨fun hdropped => ?_, ?_, fun before count after h => ?_, fun before text after h => ?_⟩
  · exact keptBatches_records cfg now capacity hdropped
  · rw [runShown_eq cfg running rfl, hrecorded, restore_collapse]
    rfl
  · rw [h] at hcollapsed
    cases hcollapsed.drop with
    | repeated pos frame next _ => exact ⟨pos, next, lastShown?_of_isFrame frame⟩
  · rw [h] at hcollapsed
    cases hcollapsed.drop with
    | shown differs _ =>
      intro hframe hlast
      rw [hlast] at differs
      exact differs hframe rfl

/-- A spinner that turns back to the same glyph while the user types, is flushed in between, and
ends in the middle of a character. -/
def turning : List (Stage.Step Call) :=
  [.call (.output [0x7C]), .call (.output [0x7C]), .call (.input [0x79]), .call .flush,
    .call (.output [0x7C]), .sleep 5000, .call (.output [0x2F]), .call (.output [0x2F, 0xE2])]

theorem repeats_restored_turning :
    .call .stop ∉ turning ∧
      restore [] (recorded ⟨4, 1000, by decide, by decide⟩ 0 1 turning) =
        [['|'], ['|'], ['|'], ['/'], ['/'], [Utf8.replacement]] ∧
      recorded ⟨4, 1000, by decide, by decide⟩ 0 1 turning =
        [.shown ['|'], .typed ['y'], .repeated 2, .shown ['/'], .repeated 1,
          .shown [Utf8.replacement]] := by
  have running : .call .stop ∉ turning := by
    simp only [turning, List.mem_cons, List.not_mem_nil, Stage.Step.call.injEq, reduceCtorEq,
      or_self, not_false_eq_true]
  have hrestored := (repeats_restored ⟨4, 1000, by decide, by decide⟩ 0 1 turning running).2.1
  refine ⟨running, ?_, by decide +kernel⟩
  rw [hrestored]
  decide +kernel

end Recorder

end TerminalSession
