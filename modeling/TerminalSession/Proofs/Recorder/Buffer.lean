import TerminalSession.Proofs.Recorder.Filing
import TerminalSession.Proofs.Utf8.Codec

/-!
# What is in the buffer

Counts of repeats are buffered and not counted as bytes, so the threshold alone puts no bound to how
many records a buffer holds. Two things do. No text that is buffered is empty, so each takes up a
byte at least; and a count stands right before a text that was shown, never at the end and never
before another count (`Filled`). So there are at most as many counts as texts, and fewer texts than
bytes to fill the buffer (`buffer_bounded`).

All of it is one invariant (`WellKept`), which says as well in what state a recorder is left by its
end. What a move does to the buffer is known from `Proofs/Recorder/Filing`, so a case of the
invariant is either a buffer with some records more or an empty one.
-/

set_option autoImplicit false

namespace TerminalSession

/-- Whether a record is a count of repeats. -/
def Record.isCount : Record → Bool
  | .repeated _ => true
  | .typed _ | .shown _ => false

/-- The bytes of the texts of a batch, counts of repeats left out. -/
def Stamped.textBytes (batch : List Stamped) : Bytes :=
  (batch.filter fun s => !s.record.isCount).flatMap fun s => Utf8.encode s.record.text

namespace Recorder

open Escape (Waiting)
open Stamped (textBytes totalSize)

theorem length_textBytes (batch : List Stamped) : (textBytes batch).length = totalSize batch := by
  induction batch with
  | nil => rfl
  | cons s batch ih =>
    obtain ⟨time, record⟩ := s
    rw [totalSize, ← ih]
    cases record with
    | typed text => exact List.length_append.trans (congrArg (· + _) (Utf8.length_encode text))
    | shown text => exact List.length_append.trans (congrArg (· + _) (Utf8.length_encode text))
    | repeated count => exact (Nat.zero_add _).symm

/-! ## Texts, and counts that stand before them -/

/-- Records that a buffer can hold: texts that are not empty, and counts of repeats that each stand
right before a text that was shown. -/
inductive Filled : List Record → Prop
  | nil : Filled []
  | typed {text : List Char} {rest : List Record} (h : text ≠ []) (hrest : Filled rest) :
      Filled (.typed text :: rest)
  | shown {text : List Char} {rest : List Record} (h : text ≠ []) (hrest : Filled rest) :
      Filled (.shown text :: rest)
  | counted {count : Nat} {text : List Char} {rest : List Record} (h : text ≠ [])
      (hrest : Filled rest) : Filled (.repeated count :: .shown text :: rest)

theorem Filled.append {records more : List Record} (h : Filled records) (h' : Filled more) :
    Filled (records ++ more) := by
  induction h with
  | nil => exact h'
  | typed h _ ih => exact .typed h ih
  | shown h _ ih => exact .shown h ih
  | counted h _ ih => exact .counted h ih

theorem Entered.filled {records : List Record} (h : Entered records) : Filled records := by
  cases h with
  | nothing => exact .nil
  | typed h => exact .typed h .nil
  | shown repeats h =>
    cases repeats with
    | zero => exact .shown h .nil
    | succ repeats => exact .counted h .nil

/-- Right behind a count stands a text that was shown. -/
theorem Filled.behind_count {count : Nat} {before after : List Record}
    (h : Filled (before ++ .repeated count :: after)) :
    ∃ text more, after = .shown text :: more := by
  generalize hrecords : before ++ .repeated count :: after = records at h
  induction h generalizing before with
  | nil => exact absurd hrecords (List.append_ne_nil_of_right_ne_nil _ (List.cons_ne_nil _ _))
  | typed _ _ ih =>
    cases before with
    | nil => cases hrecords
    | cons record before => exact ih (List.cons.inj hrecords).2
  | shown _ _ ih =>
    cases before with
    | nil => cases hrecords
    | cons record before => exact ih (List.cons.inj hrecords).2
  | counted _ _ ih =>
    match before, hrecords with
    | [], hrecords => exact ⟨_, _, (List.cons.inj hrecords).2⟩
    | [_], hrecords => cases (List.cons.inj (List.cons.inj hrecords).2).1
    | _ :: _ :: before, hrecords => exact ih (List.cons.inj (List.cons.inj hrecords).2).2

theorem size_pos {text : List Char} (h : text ≠ []) : 0 < Utf8.size text := by
  cases text with
  | nil => exact absurd rfl h
  | cons c text => exact Nat.lt_of_lt_of_le c.utf8Size_pos (Nat.le_add_right _ _)

/-- At most every other record takes up no bytes. -/
theorem Filled.length_le {batch : List Stamped} (h : Filled (batch.map (·.record))) :
    batch.length ≤ 2 * totalSize batch := by
  generalize hrecords : batch.map (·.record) = records at h
  induction h generalizing batch with
  | nil =>
    rw [List.map_eq_nil_iff.mp hrecords]
    exact Nat.zero_le _
  | typed hne _ ih =>
    obtain ⟨s, rest, rfl, hs, hrest⟩ := List.map_eq_cons_iff.mp hrecords
    have hpos := size_pos hne
    have hle := ih hrest
    rw [List.length_cons, totalSize, hs, Record.size]
    omega
  | shown hne _ ih =>
    obtain ⟨s, rest, rfl, hs, hrest⟩ := List.map_eq_cons_iff.mp hrecords
    have hpos := size_pos hne
    have hle := ih hrest
    rw [List.length_cons, totalSize, hs, Record.size]
    omega
  | counted hne _ ih =>
    obtain ⟨count, batch, rfl, hcount, hmore⟩ := List.map_eq_cons_iff.mp hrecords
    obtain ⟨s, rest, rfl, hs, hrest⟩ := List.map_eq_cons_iff.mp hmore
    have hpos := size_pos hne
    have hle := ih hrest
    rw [List.length_cons, List.length_cons, totalSize, totalSize, hcount, hs, Record.size,
      Record.size]
    omega

/-! ## What every recorder keeps -/

/-- The state of a recorder that was begun and told whatever. -/
structure WellKept (cfg : Config) (r : Recorder) : Prop where
  filled : Filled (r.buffer.map (·.record))
  bytes : r.bytes = totalSize r.buffer
  below : r.bytes < cfg.flushThreshold
  waiting : Waiting r.held
  /-- Nothing is left in a recorder that has stopped. -/
  ended : r.stopped = true → r.buffer = [] ∧ r.repeats = 0 ∧ r.held = []

theorem Filed.filled {cfg : Config} {r : Recorder} {now : Nat} {records : List Record}
    {moved : Recorder × List Event} (h : Filed cfg r (stamped now records) moved)
    (hr : Filled (r.buffer.map (·.record))) (hrecords : Filled records) :
    Filled (moved.1.buffer.map (·.record)) := by
  rcases h with hkept | hempty
  · rw [hkept.buffer, List.map_append, record_stamped]
    exact hr.append hrecords
  · rw [hempty.buffer]
    exact .nil

theorem start_wellKept (cfg : Config) (now : Nat) : WellKept cfg (start cfg now) :=
  ⟨.nil, rfl, cfg.flushThreshold_pos, .nothing, fun h => absurd h Bool.false_ne_true⟩

theorem WellKept.call {cfg : Config} {r : Recorder} (h : WellKept cfg r) (now : Nat) (i : Call) :
    WellKept cfg (call cfg now i r).1 := by
  cases hstopped : r.stopped with
  | true =>
    rw [call_of_stopped cfg now i hstopped]
    exact h
  | false =>
    by_cases hi : i = .stop
    · subst hi
      have hended := stop_ended cfg now hstopped h.waiting
      refine ⟨?_, ?_, ?_, ?_, fun _ => ⟨hended.buffer, hended.repeats, hended.held⟩⟩
      · rw [Recorder.call, hended.buffer]
        exact .nil
      · rw [Recorder.call, hended.buffer]
        exact hended.bytes h.bytes
      · rw [Recorder.call, hended.bytes h.bytes]
        exact cfg.flushThreshold_pos
      · rw [Recorder.call, hended.held]
        exact .nothing
    · obtain ⟨records, hentered, hfiled⟩ := call_filed cfg now hi r
      obtain ⟨-, hheld, hrunning⟩ := call_due cfg now hi hstopped []
      refine ⟨hfiled.filled h.filled hentered.filled, hfiled.bytes_eq h.bytes,
        hfiled.below h.below, ?_, ?_⟩
      · rw [hheld]
        exact waiting_heldThrough h.waiting _
      · rw [hrunning]
        exact fun hend => absurd hend Bool.false_ne_true

theorem WellKept.ring {cfg : Config} {r : Recorder} (h : WellKept cfg r) (now : Nat) :
    WellKept cfg (ring cfg now r).1 := by
  have hfiled : Filed cfg r (stamped now []) (Recorder.ring cfg now r) := ring_filed cfg now r
  obtain ⟨-, hheld, hstopped⟩ := ring_due cfg now r []
  refine ⟨hfiled.filled h.filled .nil, hfiled.bytes_eq h.bytes, hfiled.below h.below, ?_, ?_⟩
  · rw [hheld]
    exact h.waiting
  · rw [hheld, hstopped]
    intro hend
    obtain ⟨-, hrepeats, hnone⟩ := h.ended hend
    exact ⟨flush_buffer r, (flush_repeats r).trans hrepeats, hnone⟩

theorem wellKept_keeps (cfg : Config) :
    Stage.Keeps (component cfg) (fun _ => True) fun _ r _ => WellKept cfg r where
  call {now _ _ i} _ h := h.call now i
  ring {_ due _ _} _ h := h.ring due
  wait _ _ h := h

/-- Every recorder is well kept, whatever it is told and however time passes. -/
theorem run_wellKept (cfg : Config) (began capacity : Nat) (steps : List (Stage.Step Call)) :
    WellKept cfg ((opening cfg began capacity).run (component cfg) steps).1.state :=
  (wellKept_keeps cfg).run_nil (s := opening cfg began capacity) (fun _ _ => trivial)
    (start_wellKept cfg began)

/-! ## The bound -/

/-- What there is in a buffer, and how much of it there can be. -/
structure Bounded (cfg : Config) (r : Recorder) : Prop where
  /-- The counter is the number of bytes of the texts. -/
  counted : r.bytes = (textBytes r.buffer).length
  below : r.bytes < cfg.flushThreshold
  empty_iff : r.bytes = 0 ↔ r.buffer = []
  /-- Right behind a count of repeats there is a text that was shown. -/
  followed : ∀ before s count after, r.buffer = before ++ s :: after →
    s.record = .repeated count → ∃ next text more, after = next :: more ∧ next.record = .shown text
  short : r.buffer.length ≤ 2 * (cfg.flushThreshold - 1)

/-- **The buffer is bounded and its bytes are counted exactly**, whatever a recorder is told, before
its end and after it, and whenever its timer goes off. -/
theorem buffer_bounded (cfg : Config) (began capacity : Nat) (steps : List (Stage.Step Call)) :
    Bounded cfg ((opening cfg began capacity).run (component cfg) steps).1.state := by
  have h := run_wellKept cfg began capacity steps
  generalize ((opening cfg began capacity).run (component cfg) steps).1.state = r at h
  have hlength := h.filled.length_le
  have hbytes := h.bytes
  have hbelow := h.below
  refine ⟨?_, h.below, ?_, ?_, ?_⟩
  · rw [length_textBytes]
    exact h.bytes
  · constructor
    · intro hzero
      apply List.eq_nil_of_length_eq_zero
      omega
    · intro hempty
      rw [hbytes, hempty]
      rfl
  · intro before s count after hbuffer hcount
    have hfilled := h.filled
    rw [hbuffer, List.map_append, List.map_cons, hcount] at hfilled
    obtain ⟨text, more, hafter⟩ := hfilled.behind_count
    obtain ⟨next, rest, rfl, hnext, -⟩ := List.map_eq_cons_iff.mp hafter
    exact ⟨next, text, rest, rfl, hnext⟩
  · omega

end Recorder

end TerminalSession
