import TerminalSession.Proofs.Recorder.Buffer
import TerminalSession.Proofs.Stage.Frozen

/-!
# What stopping hands over

A recorder that is stopped hands over what it still has, in one batch: what is buffered, the count of
repeats, and the text of a tail that starts with a cut character. If it has none of them, it hands
over nothing. Either way nothing is left in it, and nothing happens in it any more.

The buffer may fill while it is being settled, and it is handed over at the end in any case. That
this makes one batch and not two is `stop_ended`; this module says of which recorders there is one.
-/

set_option autoImplicit false

namespace TerminalSession.Recorder

open Utf8 (startsCut)

theorem length_handover_le (batch : List Stamped) : (handover batch).length ≤ 1 := by
  unfold handover
  split
  · exact Nat.zero_le 1
  · exact Nat.le_refl 1

theorem length_handover_eq_one (batch : List Stamped) :
    (handover batch).length = 1 ↔ batch ≠ [] := by
  cases batch with
  | nil => exact ⟨nofun, fun h => absurd rfl h⟩
  | cons s batch => exact ⟨fun _ => List.cons_ne_nil s batch, fun _ => rfl⟩

theorem eq_of_mem_handover {batch : List Stamped} {job : Job} (h : job ∈ handover batch) :
    job = .persist batch := by
  unfold handover at h
  split at h
  · cases h
  · exact List.mem_singleton.mp h

/-- What the end brings is nothing only where nothing has been repeated and no character is cut. -/
theorem closing_eq_nil_iff (r : Recorder) :
    r.closing = [] ↔ r.repeats = 0 ∧ startsCut r.held = false := by
  unfold closing
  cases startsCut r.held with
  | true =>
    rw [if_pos rfl]
    constructor
    · intro h
      cases (List.append_eq_nil_iff.mp h).2
    · rintro ⟨-, h⟩
      cases h
  | false =>
    rw [if_neg Bool.false_ne_true, List.append_nil]
    cases r.repeats with
    | zero => exact ⟨fun _ => ⟨rfl, rfl⟩, fun _ => rfl⟩
    | succ repeats => exact ⟨nofun, fun h => absurd h.1 (Nat.succ_ne_zero repeats)⟩

/-- Stopping a recorder at an instant hands over what it has, at most once and only if there is
something. -/
structure HandsOver (now : Nat) (r : Recorder) (moved : Recorder × List Event) : Prop where
  atMostOnce : (submitted moved.2).length ≤ 1
  /-- There is a batch if the recorder was running and had something to hand over. -/
  once_iff : (submitted moved.2).length = 1 ↔
    r.stopped = false ∧ (r.buffer ≠ [] ∨ r.repeats ≠ 0 ∨ startsCut r.held = true)
  /-- It holds all that is buffered, and behind that what is owed. -/
  batch : ∀ job ∈ submitted moved.2, job = .persist (r.buffer ++ stamped now r.closing)
  buffer : moved.1.buffer = []
  bytes : moved.1.bytes = 0
  repeats : moved.1.repeats = 0
  held : moved.1.held = []

theorem WellKept.stop_handsOver {cfg : Config} {r : Recorder} (h : WellKept cfg r) (now : Nat) :
    HandsOver now r (stop cfg now r) := by
  cases hstopped : r.stopped with
  | true =>
    obtain ⟨hbuffer, hrepeats, hheld⟩ := h.ended hstopped
    rw [stop, if_pos hstopped]
    refine ⟨Nat.zero_le 1, ⟨?_, ?_⟩, ?_, hbuffer, ?_, hrepeats, hheld⟩
    · intro hone
      cases hone
    · rintro ⟨hrunning, -⟩
      rw [hstopped] at hrunning
      cases hrunning
    · intro job hjob
      cases hjob
    · rw [h.bytes, hbuffer]
      rfl
  | false =>
    have hended := stop_ended cfg now hstopped h.waiting
    refine ⟨?_, ?_, ?_, hended.buffer, hended.bytes h.bytes, hended.repeats, hended.held⟩
    · rw [hended.jobs]
      exact length_handover_le _
    · rw [hended.jobs, length_handover_eq_one, ne_eq, List.append_eq_nil_iff, stamped,
        List.map_eq_nil_iff, closing_eq_nil_iff, hstopped]
      simp only [true_and, Decidable.not_and_iff_not_or_not, Bool.not_eq_false]
    · intro job hjob
      rw [hended.jobs] at hjob
      exact eq_of_mem_handover hjob

/-- Nothing happens in a recorder that has stopped. -/
theorem frozen_of_stopped (cfg : Config) {r : Recorder} (h : r.stopped = true) :
    Stage.Frozen (component cfg) r where
  call now i := call_of_stopped cfg now i h
  alarm := if_pos h

end TerminalSession.Recorder
