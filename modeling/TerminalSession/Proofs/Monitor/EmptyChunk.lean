import TerminalSession.Proofs.Monitor.Product
import TerminalSession.Proofs.Monitor.Stop

/-!
# What is held back, and chunks with nothing in them

A chunk of output that is empty is nothing to the classifier, which does not look at it. The
recorder does not ask: it takes what it holds back, looks for the unfinished end of that and splits
it there once more. That nothing comes of this is a law of what is held back (`HeldBack`): it is
unfinished from its first byte on, and there is not too much of it to be held. Every recorder keeps
this, whatever it is told (`run_heldBack`), a tail that was too long to be held included, since
nothing is left of that.

So an empty chunk leaves the stage of a monitor as it was, and is no event (`emptyChunk_unnoticed`);
a run is what it is without its empty chunks (`run_filter_emptyChunk`).

## What this does NOT decide

A chunk that is not empty puts the idle deadline off, even if all of it is held back.
-/

set_option autoImplicit false

namespace TerminalSession

namespace Utf8

/-- A cut character is cut off whole. -/
theorem Cut.cutCharacter_eq {part : Bytes} (h : Cut part) : cutCharacter part = part.length := by
  obtain @⟨first, tail, hfirst, htail, hsize⟩ := h
  have hcut := cutCharacter_append_cons [] hfirst htail
  rw [if_pos hsize] at hcut
  exact hcut

/-- A character takes four bytes at most, and of a cut one a byte is missing. -/
theorem Cut.length_le {part : Bytes} (h : Cut part) : part.length ≤ 3 := by
  obtain @⟨first, tail, -, -, hsize⟩ := h
  have hle := announcedSize_le first
  rw [List.length_cons]
  omega

theorem Cut.le_first {first : UInt8} {tail : Bytes} (h : Cut (first :: tail)) : 0xC0 ≤ first := by
  cases h with
  | mk _ _ hsize =>
    rw [announcedSize_eq] at hsize
    apply UInt8.le_iff_toNat_le.mpr
    show 0xC0 ≤ first.toNat
    by_cases hlow : first.toNat < 0xC0
    · rw [if_pos hlow] at hsize
      omega
    · omega

theorem Cut.esc_not_mem {part : Bytes} (h : Cut part) : Escape.escByte ∉ part := by
  obtain @⟨first, tail, hfirst, htail, hsize⟩ := h
  have hlow := (Cut.mk hfirst htail hsize).le_first
  intro hmem
  rcases List.mem_cons.mp hmem with rfl | hmem
  · exact absurd hlow (by decide)
  · exact absurd (htail _ hmem) (by decide)

end Utf8

namespace Escape

/-- **What waits is unfinished from its first byte on.** -/
theorem Waiting.tailStart_eq {held : Bytes} (h : Waiting held) : tailStart held = 0 := by
  cases h with
  | nothing => rfl
  | sequence hopen =>
    rw [tailStart, hopen.unfinished, Nat.sub_self]
    exact Nat.zero_sub _
  | character hcut =>
    have hsettled : unfinishedLength held = 0 := settled_of_not_mem hcut.esc_not_mem
    rw [tailStart, hsettled, Nat.sub_zero, List.take_length, hcut.cutCharacter_eq, Nat.sub_self]
  | @both part body hcut hopen =>
    have hlength : unfinishedLength (part ++ escByte :: body) = (escByte :: body).length :=
      (unfinishedLength_append_of_mem part List.mem_cons_self).trans hopen.unfinished
    rw [tailStart, hlength, List.length_append, Nat.add_sub_cancel, List.take_left,
      hcut.cutCharacter_eq, Nat.sub_self]

end Escape

namespace Recorder

open Escape (Waiting Open escByte tailStart)
open Utf8 (Cut)

/-- What a recorder may hold back. -/
structure HeldBack (held : Bytes) : Prop where
  short : held.length ≤ 4096
  unfinished : tailStart held = 0
  /-- It begins with an escape sequence that is not finished, or with a character that is cut off
  and has at most such a sequence behind it. -/
  begins : ∀ first rest, held = first :: rest →
    (first = escByte ∧ Open rest) ∨
      (0xC0 ≤ first ∧ ∃ tail behind, rest = tail ++ behind ∧ Cut (first :: tail) ∧
        tail.length + 1 ≤ 3 ∧ (behind = [] ∨ ∃ body, behind = escByte :: body ∧ Open body))

theorem heldBack_of_waiting {held : Bytes} (h : Waiting held) (hshort : held.length ≤ holdLimit) :
    HeldBack held := by
  refine ⟨hshort, h.tailStart_eq, ?_⟩
  intro first rest hheld
  cases h with
  | nothing => cases hheld
  | sequence hopen =>
    cases hheld
    exact .inl ⟨rfl, hopen⟩
  | character hcut =>
    rw [hheld] at hcut
    exact .inr ⟨hcut.le_first, rest, [], (List.append_nil rest).symm, hcut, hcut.length_le,
      .inl rfl⟩
  | @both part body hcut hopen =>
    cases part with
    | nil => cases hcut
    | cons b tail =>
      cases hheld
      exact .inr ⟨hcut.le_first, tail, escByte :: body, rfl, hcut, hcut.length_le,
        .inr ⟨body, rfl, hopen⟩⟩

theorem length_splitTail_le (raw : Bytes) : (splitTail raw).2.length ≤ holdLimit := by
  rw [splitTail]
  split
  next hfits =>
    rw [List.length_drop]
    exact hfits
  next => exact Nat.zero_le _

theorem heldBack_splitTail (raw : Bytes) : HeldBack (splitTail raw).2 :=
  heldBack_of_waiting (waiting_splitTail raw) (length_splitTail_le raw)

theorem heldBack_nil : HeldBack [] := heldBack_of_waiting .nothing (Nat.zero_le _)

/-- What is held back is all held back once more. -/
theorem HeldBack.splitTail_eq {held : Bytes} (h : HeldBack held) : splitTail held = ([], held) := by
  have hfits : held.length - 0 ≤ holdLimit := h.short
  simp only [splitTail, h.unfinished, if_pos hfits, List.take_zero, List.drop_zero]

/-! ## Every recorder -/

/-- What a call leaves held back was held back before, or has just been split off, or is nothing. -/
theorem HeldBack.call {r : Recorder} (h : HeldBack r.held) (cfg : Config) (now : Nat) (i : Call) :
    HeldBack (call cfg now i r).1.held := by
  cases hstopped : r.stopped with
  | true =>
    rw [call_of_stopped cfg now i hstopped]
    exact h
  | false =>
    cases i with
    | output data =>
      rw [Recorder.call, output_of_running cfg now data hstopped,
        held_eq_of_aside (showText_aside cfg now _ _)]
      exact heldBack_splitTail (r.held ++ data)
    | input data =>
      rw [Recorder.call, input]
      split
      · exact h
      · rw [held_eq_of_aside (append_aside cfg now _ r)]
        exact h
    | flush =>
      rw [Recorder.call, flushNow, hstopped, if_neg Bool.false_ne_true,
        held_eq_of_aside (flush_aside r)]
      exact h
    | stop =>
      have haside := (flush_aside _).trans (close_aside cfg now { r with stopped := true })
      have hheld : (stop cfg now r).1.held = [] := by
        rw [stop_of_running cfg now hstopped]
        exact congrArg Prod.fst haside
      rw [Recorder.call, hheld]
      exact heldBack_nil

theorem heldBack_keeps (cfg : Config) :
    Stage.Keeps (component cfg) (fun _ => True) fun _ r _ => HeldBack r.held where
  call {now _ _ i} _ h := h.call cfg now i
  ring {_ due r _} _ h := by
    have hheld : (ring cfg due r).1.held = r.held := (ring_due cfg due r []).2.1
    show HeldBack (ring cfg due r).1.held
    rw [hheld]
    exact h
  wait _ _ h := h

/-- **Every recorder holds back nothing else**, whatever it is told and however time passes. -/
theorem run_heldBack (cfg : Config) (began capacity : Nat) (steps : List (Stage.Step Call)) :
    HeldBack ((opening cfg began capacity).run (component cfg) steps).1.state.held :=
  (heldBack_keeps cfg).run_nil (s := opening cfg began capacity) (fun _ _ => trivial) heldBack_nil

theorem clean_nil : clean [] = [] := by
  have hdecode : Utf8.decode [] = [] := rfl
  rw [clean, hdecode, Text.forTranscript, Escape.strip_nil]
  rfl

theorem HeldBack.output_nil {r : Recorder} (h : HeldBack r.held) (cfg : Config) (now : Nat) :
    output cfg now [] r = (r, []) := by
  cases hstopped : r.stopped with
  | true => rw [output, if_pos hstopped]
  | false =>
    simp only [output, hstopped, Bool.false_eq_true, if_false, List.append_nil, h.splitTail_eq,
      clean_nil, showText, List.isEmpty_nil, if_true]
    rw [← hstopped]

end Recorder

/-! ## Every monitor -/

namespace Monitor

open Recorder (HeldBack)

/-- The recorder of a monitor is a recorder that was told its share. -/
theorem recorder_heldBack (cfg : Config) (began capacity : Nat) (steps : List (Stage.Step Call)) :
    HeldBack ((opening cfg began capacity).run (component cfg) steps).1.state.recorder.held := by
  have hheard : Stage.Shows recorder (opening cfg began capacity)
      (Recorder.opening cfg.recorder began capacity) := ⟨rfl, rfl⟩
  rw [← ((recorder_role cfg).run hheard steps).1.state]
  exact Recorder.run_heldBack cfg.recorder began capacity _

theorem output_nil {m : Monitor} (h : HeldBack m.recorder.held) (cfg : Config) (now : Nat) :
    output cfg now [] m = (m, []) :=
  output_of_none rfl (h.output_nil cfg.recorder now)

theorem step_emptyChunk (cfg : Config) {s : Stage Monitor Job}
    (h : HeldBack s.state.recorder.held) :
    s.step (component cfg) (.call (.output [])) = (s, []) := by
  have hcall : (component cfg).call s.now (.output []) s.state = (s.state, []) :=
    output_nil h cfg s.now
  simp only [Stage.step, hcall]
  rfl

/-- **The held tail is wholly unfinished and stays so, and an empty chunk goes unnoticed.**

- A recorder that was begun and told whatever holds back at most 4096 bytes, in which nothing is
  finished: an escape sequence, or a character that is cut off, or one and behind it the other.
- In a monitor that was begun and told whatever, an empty chunk changes nothing: neither its
  classifier nor its recorder nor which of the timers was set first; and no job is submitted. -/
theorem emptyChunk_unnoticed :
    (∀ (cfg : Recorder.Config) (began capacity : Nat) (steps : List (Stage.Step Recorder.Call)),
      HeldBack
        ((Recorder.opening cfg began capacity).run (Recorder.component cfg) steps).1.state.held) ∧
    ∀ (cfg : Config) (began capacity : Nat) (steps : List (Stage.Step Call)),
      let s := ((opening cfg began capacity).run (component cfg) steps).1
      HeldBack s.state.recorder.held ∧
        s.step (component cfg) (.call (.output [])) = (s, []) := by
  refine ⟨Recorder.run_heldBack, ?_⟩
  intro cfg began capacity steps s
  have hheld : HeldBack s.state.recorder.held := recorder_heldBack cfg began capacity steps
  exact ⟨hheld, step_emptyChunk cfg hheld⟩

/-- Whether a step is a chunk of output with nothing in it. -/
def isEmptyChunk : Stage.Step Call → Bool
  | .call (.output data) => data.isEmpty
  | .call _ | .sleep _ | .hold | .release => false

/-- A run is what it is without its empty chunks. -/
theorem run_filter_emptyChunk (cfg : Config) (began capacity : Nat)
    (steps : List (Stage.Step Call)) :
    (opening cfg began capacity).run (component cfg) (steps.filter (!isEmptyChunk ·)) =
      (opening cfg began capacity).run (component cfg) steps := by
  -- From the end, as what is held back is known where a run from the beginning has come to.
  induction steps using List.reverseRecOn with
  | nil => rfl
  | append_singleton steps step ih =>
    rw [List.filter_append, Stage.run_append, Stage.run_append, ih]
    cases hempty : isEmptyChunk step with
    | false => rw [List.filter_cons_of_pos (by rw [hempty]; rfl), List.filter_nil]
    | true =>
      obtain rfl : step = .call (.output []) := by
        cases step with
        | call i =>
          cases i with
          | output data => rw [List.isEmpty_iff.mp hempty]
          | input data => cases hempty
          | exit => cases hempty
          | stop => cases hempty
        | sleep ms => cases hempty
        | hold => cases hempty
        | release => cases hempty
      have hnone := step_emptyChunk cfg (recorder_heldBack cfg began capacity steps)
      rw [List.filter_cons_of_neg (by rw [hempty]; exact Bool.false_ne_true), List.filter_nil]
      simp only [Stage.run, hnone, List.append_nil]

end Monitor

end TerminalSession
