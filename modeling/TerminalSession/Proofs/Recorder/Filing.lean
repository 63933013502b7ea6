import TerminalSession.Proofs.Recorder.Held
import TerminalSession.Proofs.Recorder.Transcript

/-!
# What a move does to the buffer

Whatever moves a recorder, the records it brings are put behind those in the buffer, all stamped with
the instant of the move. Then one of two things has happened (`Filed`): the buffer is kept and not
full, or all that was in it, the new records included, has been handed over in one batch. A move
never hands over twice, nor a part of the buffer.

What a call can bring is one typed text, or one shown text with the count of repeats before it
(`Entered`, `call_filed`). The timer brings nothing and leaves no buffer (`ring_filed`). The end
brings what is owed for the tail and the repeats, and leaves no buffer either (`stop_ended`). There
the buffer may be handed over twice over, when the text of the tail fills it and at the very end. But
that text is no frame, so the count is recorded before it and none is left behind it, and the second
time there is nothing to hand over.
-/

set_option autoImplicit false

namespace TerminalSession.Recorder

open Escape (Waiting)
open Stamped (totalSize)
open Utf8 (startsCut)

/-- Records, all stamped with one instant. -/
def stamped (now : Nat) (records : List Record) : List Stamped :=
  records.map fun record => { time := now, record }

theorem stamped_append (now : Nat) (records more : List Record) :
    stamped now (records ++ more) = stamped now records ++ stamped now more :=
  List.map_append

theorem record_stamped (now : Nat) (records : List Record) :
    (stamped now records).map (·.record) = records := by
  rw [stamped, List.map_map]
  exact List.map_id records

theorem time_of_mem_stamped {now : Nat} {records : List Record} {s : Stamped}
    (h : s ∈ stamped now records) : s.time = now := by
  obtain ⟨record, -, rfl⟩ := List.mem_map.mp h
  rfl

/-- The jobs for a buffer that is handed over: none if it is empty. -/
def handover (batch : List Stamped) : List Job := if batch.isEmpty then [] else [.persist batch]

theorem handover_of_ne {batch : List Stamped} (h : batch ≠ []) :
    handover batch = [.persist batch] := by
  rw [handover, List.isEmpty_eq_false_iff.mpr h, if_neg Bool.false_ne_true]

/-- The jobs that events submit. -/
def submitted (events : List Event) : List Job := events.filterMap Event.job?

theorem submitted_append (events more : List Event) :
    submitted (events ++ more) = submitted events ++ submitted more :=
  List.filterMap_append

theorem totalSize_append (batch more : List Stamped) :
    totalSize (batch ++ more) = totalSize batch + totalSize more := by
  induction batch with
  | nil => exact (Nat.zero_add _).symm
  | cons s batch ih => rw [List.cons_append, totalSize, totalSize, ih, Nat.add_assoc]

/-! ## Kept or handed over -/

/-- A move has put records into the buffer, and has not filled it. -/
structure Kept (cfg : Config) (r : Recorder) (added : List Stamped)
    (moved : Recorder × List Event) : Prop where
  buffer : moved.1.buffer = r.buffer ++ added
  bytes : moved.1.bytes = r.bytes + totalSize added
  below : r.bytes < cfg.flushThreshold → moved.1.bytes < cfg.flushThreshold
  jobs : submitted moved.2 = []

/-- A move has handed over the buffer, and the records that it put there, in one batch. -/
structure Emptied (r : Recorder) (added : List Stamped) (moved : Recorder × List Event) : Prop where
  any : r.buffer ++ added ≠ []
  buffer : moved.1.buffer = []
  bytes : moved.1.bytes = 0
  jobs : submitted moved.2 = [.persist (r.buffer ++ added)]

/-- What has become of the buffer and of the records that a move has brought. -/
def Filed (cfg : Config) (r : Recorder) (added : List Stamped) (moved : Recorder × List Event) :
    Prop :=
  Kept cfg r added moved ∨ Emptied r added moved

variable {cfg : Config} {r s : Recorder} {added more : List Stamped} {moved : Recorder × List Event}

theorem filed_nothing (h : moved.1.buffer = r.buffer) (hbytes : moved.1.bytes = r.bytes)
    (hjobs : submitted moved.2 = []) : Filed cfg r [] moved := by
  refine .inl ⟨?_, hbytes, ?_, hjobs⟩
  · rw [h, List.append_nil]
  · rw [hbytes]
    exact id

/-- Only the buffer that a move begins with matters to what becomes of it. -/
theorem Filed.congr (h : Filed cfg s added moved) (hbuffer : s.buffer = r.buffer)
    (hbytes : s.bytes = r.bytes) : Filed cfg r added moved := by
  rcases h with ⟨hkept, hsize, hbelow, hjobs⟩ | ⟨hany, hempty, hzero, hjobs⟩
  · rw [hbuffer] at hkept
    rw [hbytes] at hsize hbelow
    exact .inl ⟨hkept, hsize, hbelow, hjobs⟩
  · rw [hbuffer] at hany hjobs
    exact .inr ⟨hany, hempty, hzero, hjobs⟩

/-- A move that leaves no buffer hands over what was put there before it as well. -/
theorem Emptied.behind (h : Emptied s more moved) (hs : s.buffer = r.buffer ++ added) :
    Emptied r (added ++ more) moved := by
  obtain ⟨hany, hbuffer, hbytes, hjobs⟩ := h
  rw [hs, List.append_assoc] at hany hjobs
  exact ⟨hany, hbuffer, hbytes, hjobs⟩

/-- After a move that keeps the buffer, what becomes of it is up to the next. -/
theorem Kept.trans {first second : Recorder × List Event} (h : Kept cfg r added first)
    (h' : Filed cfg first.1 more second) :
    Filed cfg r (added ++ more) (second.1, first.2 ++ second.2) := by
  have hjobs : submitted (first.2 ++ second.2) = submitted second.2 := by
    rw [submitted_append, h.jobs, List.nil_append]
  rcases h' with ⟨hbuffer, hbytes, hbelow, hnone⟩ | hempty
  · refine .inl ⟨?_, ?_, fun hlt => hbelow (h.below hlt), hjobs.trans hnone⟩
    · rw [hbuffer, h.buffer, List.append_assoc]
    · rw [hbytes, h.bytes, totalSize_append, Nat.add_assoc]
  · obtain ⟨hany, hbuffer, hbytes, hbatch⟩ := hempty.behind h.buffer
    exact .inr ⟨hany, hbuffer, hbytes, hjobs.trans hbatch⟩

/-- If the bytes of the buffer were counted right, they still are. -/
theorem Filed.bytes_eq (h : Filed cfg r added moved) (hr : r.bytes = totalSize r.buffer) :
    moved.1.bytes = totalSize moved.1.buffer := by
  rcases h with ⟨hbuffer, hbytes, -, -⟩ | ⟨-, hbuffer, hbytes, -⟩
  · rw [hbytes, hbuffer, totalSize_append, hr]
  · rw [hbytes, hbuffer]
    rfl

/-- If the buffer was not full, it is not. -/
theorem Filed.below (h : Filed cfg r added moved) (hr : r.bytes < cfg.flushThreshold) :
    moved.1.bytes < cfg.flushThreshold := by
  rcases h with hkept | hempty
  · exact hkept.below hr
  · rw [hempty.bytes]
    exact cfg.flushThreshold_pos

/-! ## Handing over, buffering, summing up, showing -/

theorem flush_buffer (r : Recorder) : (flush r).1.buffer = [] := by
  unfold flush
  split
  next h => exact List.isEmpty_iff.mp h
  next => rfl

theorem flush_jobs (r : Recorder) : submitted (flush r).2 = handover r.buffer := by
  unfold flush handover
  split
  · rfl
  · rfl

theorem flush_emptied {r : Recorder} (h : r.buffer ≠ []) : Emptied r [] (flush r) := by
  have hjobs := flush_jobs r
  rw [handover_of_ne h] at hjobs
  refine ⟨?_, flush_buffer r, ?_, ?_⟩
  · rw [List.append_nil]
    exact h
  · rw [flush, if_neg (mt List.isEmpty_iff.mp h)]
  · rw [List.append_nil]
    exact hjobs

/-- Handing over brings nothing. -/
theorem flush_filed (cfg : Config) (r : Recorder) : Filed cfg r [] (flush r) := by
  by_cases h : r.buffer = []
  · rw [flush, if_pos (List.isEmpty_iff.mpr h)]
    exact filed_nothing rfl rfl rfl
  · exact .inr (flush_emptied h)

/-- If the buffer is handed over after a move as well, one batch holds it all. -/
theorem Filed.flushed (h : Filed cfg r added moved) :
    submitted (moved.2 ++ (flush moved.1).2) = handover (r.buffer ++ added) := by
  rw [submitted_append, flush_jobs]
  rcases h with ⟨hbuffer, -, -, hjobs⟩ | ⟨hany, hbuffer, -, hjobs⟩
  · rw [hjobs, hbuffer]
    rfl
  · rw [hjobs, hbuffer, handover_of_ne hany]
    rfl

theorem append_filed (cfg : Config) (now : Nat) (record : Record) (r : Recorder) :
    Filed cfg r (stamped now [record]) (append cfg now record r) := by
  simp only [append]
  split
  next =>
    have hany : r.buffer ++ stamped now [record] ≠ [] :=
      List.append_ne_nil_of_right_ne_nil _ (List.cons_ne_nil _ _)
    have hemptied : Emptied r (stamped now [record] ++ []) (flush { r with
        buffer := r.buffer ++ stamped now [record], bytes := r.bytes + record.size }) :=
      (flush_emptied hany).behind rfl
    rw [List.append_nil] at hemptied
    exact .inr hemptied
  next hroom => exact .inl ⟨rfl, rfl, fun _ => Nat.lt_of_not_le hroom, rfl⟩

/-- The count of repeats takes up no bytes, so it fills no buffer. -/
theorem sumUp_kept (cfg : Config) (now : Nat) (r : Recorder) :
    Kept cfg r (stamped now (countRecord r.repeats)) (sumUp now r) := by
  unfold sumUp
  split
  next h =>
    rw [h]
    exact ⟨(List.append_nil _).symm, rfl, id, rfl⟩
  next h =>
    obtain ⟨n, hn⟩ := Nat.exists_eq_succ_of_ne_zero h
    rw [hn]
    exact ⟨rfl, rfl, id, rfl⟩

/-- The records of a text that is shown. -/
def showing (r : Recorder) (text : List Char) : List Record :=
  if text.isEmpty || (Frame.isFrame text && text = r.lastShown) then []
  else countRecord r.repeats ++ [.shown text]

theorem showText_filed (cfg : Config) (now : Nat) (text : List Char) (r : Recorder) :
    Filed cfg r (stamped now (r.showing text)) (showText cfg now text r) := by
  unfold showText showing
  cases text.isEmpty with
  | true => exact filed_nothing rfl rfl rfl
  | false =>
    rw [if_neg Bool.false_ne_true, Bool.false_or]
    split
    · exact filed_nothing rfl rfl rfl
    · rw [stamped_append]
      apply (sumUp_kept cfg now r).trans
      exact (append_filed cfg now (.shown text) _).congr rfl rfl

/-! ## Calls and rings -/

/-- The records that a call can bring, before the end. -/
inductive Entered : List Record → Prop
  | nothing : Entered []
  | typed {text : List Char} (h : text ≠ []) : Entered [.typed text]
  | shown (repeats : Nat) {text : List Char} (h : text ≠ []) :
      Entered (countRecord repeats ++ [.shown text])

theorem entered_showing (r : Recorder) (text : List Char) : Entered (r.showing text) := by
  unfold showing
  split
  next => exact .nothing
  next h =>
    apply Entered.shown
    rintro rfl
    exact h rfl

/-- A recorder that has stopped does nothing more. -/
theorem call_of_stopped (cfg : Config) (now : Nat) (i : Call) {r : Recorder}
    (h : r.stopped = true) : call cfg now i r = (r, []) := by
  cases i with
  | output data => rw [call, output, if_pos h]
  | input data => rw [call, input, h, Bool.or_true, if_pos rfl]
  | flush => rw [call, flushNow, if_pos h]
  | stop => rw [call, stop, if_pos h]

/-- No call starts a stopped recorder again. -/
theorem running_of_call {cfg : Config} {now : Nat} {i : Call} {r : Recorder}
    (h : (call cfg now i r).1.stopped = false) : r.stopped = false := by
  cases hstopped : r.stopped with
  | false => rfl
  | true =>
    rw [call_of_stopped cfg now i hstopped, hstopped] at h
    exact h

/-- What a call does to the buffer, before the end. -/
theorem call_filed (cfg : Config) (now : Nat) {i : Call} (running : i ≠ .stop) (r : Recorder) :
    ∃ records, Entered records ∧ Filed cfg r (stamped now records) (call cfg now i r) := by
  cases hstopped : r.stopped with
  | true =>
    rw [call_of_stopped cfg now i hstopped]
    exact ⟨[], .nothing, filed_nothing rfl rfl rfl⟩
  | false =>
    cases i with
    | stop => exact absurd rfl running
    | flush =>
      rw [call, flushNow, hstopped, if_neg Bool.false_ne_true]
      exact ⟨[], .nothing, flush_filed cfg r⟩
    | output data =>
      rw [call, output_of_running cfg now data hstopped]
      have hfiled := showText_filed cfg now (shownText r.held data)
        { r with held := heldAfter r.held data }
      exact ⟨_, entered_showing _ _, hfiled.congr rfl rfl⟩
    | input data =>
      rw [call, input]
      split
      next => exact ⟨[], .nothing, filed_nothing rfl rfl rfl⟩
      next h =>
        refine ⟨_, .typed ?_, append_filed cfg now _ r⟩
        cases data with
        | nil => exact absurd rfl h
        | cons b data => exact Utf8.decode_cons_ne_nil b data

/-- The timer hands over what there is. -/
theorem ring_filed (cfg : Config) (now : Nat) (r : Recorder) : Filed cfg r [] (ring cfg now r) := by
  rcases flush_filed cfg r with h | h
  · exact .inl ⟨h.buffer, h.bytes, h.below, h.jobs⟩
  · exact .inr ⟨h.any, h.buffer, h.bytes, h.jobs⟩

/-! ## The end -/

/-- The records that the end brings: the count of repeats, and behind it the text of a tail that
starts with a cut character. -/
def closing (r : Recorder) : List Record :=
  countRecord r.repeats ++ if startsCut r.held then [.shown (clean r.held)] else []

theorem flush_repeats (r : Recorder) : (flush r).1.repeats = r.repeats := by
  unfold flush
  split
  · rfl
  · rfl

theorem append_repeats (cfg : Config) (now : Nat) (record : Record) (r : Recorder) :
    (append cfg now record r).1.repeats = r.repeats := by
  simp only [append]
  split
  · exact flush_repeats _
  · rfl

/-- A text that is no frame is recorded, and the count before it. -/
theorem showText_of_not_frame (cfg : Config) (now : Nat) {text : List Char} (r : Recorder)
    (hne : text ≠ []) (hframe : Frame.isFrame text = false) :
    r.showing text = countRecord r.repeats ++ [.shown text] ∧
      (showText cfg now text r).1.repeats = 0 := by
  have hshown : text.isEmpty = false := List.isEmpty_eq_false_iff.mpr hne
  rw [showing, showText, hshown, hframe, Bool.false_and, Bool.or_false, if_neg Bool.false_ne_true,
    if_neg Bool.false_ne_true, if_neg Bool.false_ne_true, append_repeats]
  exact ⟨rfl, (sumUp_buffer now r).2.1⟩

theorem sumUp_of_zero (now : Nat) {r : Recorder} (h : r.repeats = 0) : sumUp now r = (r, []) := by
  rw [sumUp, if_pos h]

/-- Puts what is owed for the tail and the repeats into the buffer. -/
def close (cfg : Config) (now : Nat) (r : Recorder) : Recorder × List Event :=
  let settled := settleTail cfg now r
  let summed := sumUp now settled.1
  (summed.1, settled.2 ++ summed.2)

/-- Stopping settles what is owed and hands over the buffer. -/
theorem stop_of_running (cfg : Config) (now : Nat) {r : Recorder} (h : r.stopped = false) :
    stop cfg now r =
      let closed := close cfg now { r with stopped := true }
      ((flush closed.1).1, closed.2 ++ (flush closed.1).2 ++ [.stopped]) := by
  rw [stop, h, if_neg Bool.false_ne_true]
  rfl

/-- A tail that does not start with a cut character is left out. -/
theorem settleTail_of_not_startsCut (cfg : Config) (now : Nat) {r : Recorder}
    (h : Waiting r.held) (hstarts : startsCut r.held = false) :
    ∃ events, submitted events = [] ∧ settleTail cfg now r = ({ r with held := [] }, events) := by
  rcases h.cases_startsCut with ⟨-, hheld | ⟨body, hheld⟩⟩ | ⟨hcut, -⟩
  · refine ⟨[], rfl, ?_⟩
    have hsame : { r with held := [] } = r := by rw [← hheld]
    rw [hsame, settleTail, hheld]
  · refine ⟨[.cutOff r.held.length], rfl, ?_⟩
    rw [settleTail, hheld]
    exact if_pos rfl
  · rw [hstarts] at hcut
    cases hcut

/-- A tail that starts with a cut character is shown. -/
theorem settleTail_of_startsCut (cfg : Config) (now : Nat) {r : Recorder}
    (hstarts : startsCut r.held = true) :
    settleTail cfg now r = showText cfg now (clean r.held) { r with held := [] } := by
  rw [settleTail]
  split
  next hheld =>
    rw [hheld] at hstarts
    cases hstarts
  next first rest hheld =>
    rw [if_neg]
    rintro rfl
    rw [hheld, Escape.startsCut_esc] at hstarts
    cases hstarts

theorem close_aside (cfg : Config) (now : Nat) (r : Recorder) :
    (close cfg now r).1.aside = ([], r.nextFlush, r.stopped) :=
  (sumUp_aside now _).trans (settleTail_aside cfg now r)

theorem close_repeats (cfg : Config) (now : Nat) (r : Recorder) :
    (close cfg now r).1.repeats = 0 :=
  (sumUp_buffer now _).2.1

/-- Whether or not what is owed fills the buffer, it is handed over at most once. -/
theorem close_filed (cfg : Config) (now : Nat) {r : Recorder} (h : Waiting r.held) :
    Filed cfg r (stamped now r.closing) (close cfg now r) := by
  cases hstarts : startsCut r.held with
  | true =>
    -- The text of the tail is no frame, so the count goes before it and none is left behind it.
    obtain ⟨hne, hframe⟩ := not_frame_of_startsCut h hstarts
    obtain ⟨hshowing, hzero⟩ := showText_of_not_frame cfg now { r with held := [] } hne hframe
    have hfiled := showText_filed cfg now (clean r.held) { r with held := [] }
    rw [hshowing] at hfiled
    rw [close, settleTail_of_startsCut cfg now hstarts]
    simp only [sumUp_of_zero now hzero, List.append_nil, closing, hstarts, if_true]
    exact hfiled.congr rfl rfl
  | false =>
    obtain ⟨events, hnone, hsettled⟩ := settleTail_of_not_startsCut cfg now h hstarts
    have hkept : Kept cfg r [] ({ r with held := [] }, events) :=
      ⟨(List.append_nil _).symm, rfl, id, hnone⟩
    simp only [close, hsettled, closing, hstarts, Bool.false_eq_true, if_false, List.append_nil]
    exact hkept.trans (.inl (sumUp_kept cfg now { r with held := [] }))

/-- What has become of a recorder when it stops, and the jobs it submits then. -/
structure Ended (r : Recorder) (owed : List Stamped) (moved : Recorder × List Event) : Prop where
  buffer : moved.1.buffer = []
  repeats : moved.1.repeats = 0
  held : moved.1.held = []
  stopped : moved.1.stopped = true
  bytes : r.bytes = totalSize r.buffer → moved.1.bytes = 0
  jobs : submitted moved.2 = handover (r.buffer ++ owed)

/-- **The end hands over at most once.** -/
theorem stop_ended (cfg : Config) (now : Nat) {r : Recorder} (h : r.stopped = false)
    (hwaiting : Waiting r.held) : Ended r (stamped now r.closing) (stop cfg now r) := by
  have hwaiting' : Waiting ({ r with stopped := true } : Recorder).held := hwaiting
  have hfiled : Filed cfg r (stamped now r.closing) (close cfg now { r with stopped := true }) :=
    (close_filed cfg now hwaiting').congr rfl rfl
  have haside := (flush_aside _).trans (close_aside cfg now { r with stopped := true })
  rw [stop_of_running cfg now h]
  refine ⟨flush_buffer _, ?_, congrArg Prod.fst haside, congrArg (·.2.2) haside, ?_, ?_⟩
  · exact (flush_repeats _).trans (close_repeats cfg now _)
  · intro hbytes
    have hflushed := (flush_filed cfg _).bytes_eq (hfiled.bytes_eq hbytes)
    rw [flush_buffer] at hflushed
    exact hflushed
  · rw [submitted_append, hfiled.flushed]
    exact List.append_nil _

end TerminalSession.Recorder
