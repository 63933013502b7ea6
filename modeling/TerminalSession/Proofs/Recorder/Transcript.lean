import TerminalSession.Proofs.Recorder.Arrivals
import TerminalSession.Proofs.Stage.Run

/-!
# Every record is handed over once

A recorder hands its buffer over at four occasions: when enough bytes have gathered, when its timer
goes off, on demand, and at the end. Which records a batch holds depends on all of these; what all
batches hold together does not. It is the transcript of what came in.

The proof rests on one quantity. What a recorder *owes* for texts yet to come (`due`) is what it has
buffered, followed by what `collapse` makes of those texts from here. Handing over moves records
from the buffer into a batch, and taking in a text moves records from what is to come into the
buffer; so the batches so far, followed by what is owed, never change (`call_due`, `ring_due`,
`run_due`). A stopped recorder owes nothing (`stop_due`).

## What this does NOT decide

The instants that records are stamped with do depend on time, and are left out. So is what a worker
who drops jobs makes of the batches: then a part of the transcript is missing.
-/

set_option autoImplicit false

namespace TerminalSession

/-- The batch that a job is to keep. -/
def Job.batch? : Job → Option (List Stamped)
  | .persist batch => some batch
  | .notify _ => none

/-- The transcript entry of a record made at a time. -/
def Record.entry (time : Int) (record : Record) : Entry :=
  { time, direction := record.direction, text := String.ofList record.text }

/-- Batches are written one after the other as one batch would be. -/
theorem Stamped.writeAll_flatten (time : Int) (batches : List (List Stamped)) :
    batches.flatMap (Stamped.writeAll fun _ => time) =
      Entry.writeAll ((batches.flatten.map (·.record)).map (Record.entry time)) := by
  induction batches with
  | nil => rfl
  | cons batch batches ih =>
    rw [List.flatMap_cons, ih, List.flatten_cons, List.map_append, List.map_append]
    simp only [Stamped.writeAll, Entry.writeAll, List.flatMap_append, List.map_map]
    rfl

namespace Recorder

/-- The batch that an event hands over. -/
def Event.batch? : Event → Option (List Stamped)
  | .flushed batch => some batch
  | .collapsed _ | .cutOff _ | .stopped => none

/-- The records of all batches handed over, in order. -/
def handedOver (events : List Event) : List Record :=
  (events.filterMap Event.batch?).flatten.map (·.record)

theorem handedOver_append (events more : List Event) :
    handedOver (events ++ more) = handedOver events ++ handedOver more := by
  simp only [handedOver, List.filterMap_append, List.flatten_append, List.map_append]

/-- The batches handed over are the batches of the jobs that are submitted. -/
theorem batch?_jobs (events : List Event) :
    (events.filterMap Event.job?).filterMap Job.batch? = events.filterMap Event.batch? := by
  rw [List.filterMap_filterMap]
  congr 1
  funext event
  cases event <;> rfl

/-! ## What a recorder owes -/

/-- The records owed for texts that arrive: those in the buffer, and those the texts come to. -/
def due (r : Recorder) (coming : List Arrival) : List Record :=
  r.buffer.map (·.record) ++ collapse r.lastShown r.repeats coming

/-- The records owed for what comes in. -/
def owed (r : Recorder) (coming : List Feed) : List Record := r.due (arrivals r.held coming)

theorem flush_due (r : Recorder) (coming : List Arrival) :
    handedOver (flush r).2 ++ (flush r).1.due coming = r.due coming := by
  unfold flush
  split
  · rfl
  · simp only [handedOver, Event.batch?, List.filterMap_cons, List.filterMap_nil,
      List.flatten_cons, List.flatten_nil, List.append_nil, due, List.map_nil, List.nil_append]

/-- A buffered record stands behind what was buffered and before what is to come. -/
theorem append_due (cfg : Config) (now : Nat) (record : Record) (r : Recorder)
    (coming : List Arrival) :
    handedOver (append cfg now record r).2 ++ (append cfg now record r).1.due coming =
      r.buffer.map (·.record) ++ record :: collapse r.lastShown r.repeats coming := by
  have hbuffered (r' : Recorder) (hb : r'.buffer = r.buffer ++ [{ time := now, record }])
      (hl : r'.lastShown = r.lastShown) (hr : r'.repeats = r.repeats) :
      r'.due coming =
        r.buffer.map (·.record) ++ record :: collapse r.lastShown r.repeats coming := by
    simp only [due, hb, hl, hr, List.map_append, List.map_cons, List.map_nil, List.append_assoc,
      List.singleton_append]
  simp only [append]
  split
  · rw [flush_due]
    exact hbuffered _ rfl rfl rfl
  · exact hbuffered _ rfl rfl rfl

/-- Summing up hands nothing over, and turns the count into its record. -/
theorem sumUp_buffer (now : Nat) (r : Recorder) :
    handedOver (sumUp now r).2 = [] ∧ (sumUp now r).1.repeats = 0 ∧
      (sumUp now r).1.buffer.map (·.record) =
        r.buffer.map (·.record) ++ countRecord r.repeats := by
  unfold sumUp
  split
  next h => exact ⟨rfl, h, by simp only [h, countRecord, List.append_nil]⟩
  next h =>
    obtain ⟨n, hn⟩ := Nat.exists_eq_succ_of_ne_zero h
    refine ⟨rfl, rfl, ?_⟩
    simp only [hn, countRecord, List.map_append, List.map_cons, List.map_nil]

/-- Showing a text makes of it what `collapse` does. -/
theorem showText_due (cfg : Config) (now : Nat) (text : List Char) (r : Recorder)
    (coming : List Arrival) :
    handedOver (showText cfg now text r).2 ++ (showText cfg now text r).1.due coming =
      r.due (.shown text :: coming) := by
  unfold showText
  split
  next h => simp only [due, collapse, if_pos h]; rfl
  next h =>
    split
    next hrep => simp only [due, collapse, if_neg h, if_pos hrep]; rfl
    next hrep =>
      obtain ⟨hnone, hzero, hbuffer⟩ := sumUp_buffer now r
      simp only [handedOver_append, hnone, List.nil_append, append_due, hbuffer, hzero]
      simp only [due, collapse, if_neg h, if_neg hrep, List.append_assoc]

/-- Settling the tail shows what arrives last. -/
theorem settleTail_due (cfg : Config) (now : Nat) (r : Recorder) :
    handedOver (settleTail cfg now r).2 ++ (settleTail cfg now r).1.due [] =
      r.due (lastArrivals r.held) := by
  unfold settleTail
  split
  next h => rw [h]; rfl
  next first rest h =>
    by_cases hesc : first = Escape.escByte
    · simp only [if_pos hesc, h, lastArrivals]
      rfl
    · simp only [if_neg hesc, h, lastArrivals, showText_due]
      rfl

/-- Stopping hands over all that is owed. -/
theorem stop_due (cfg : Config) (now : Nat) {r : Recorder} (h : r.stopped = false) :
    handedOver (stop cfg now r).2 = r.due (lastArrivals r.held) := by
  obtain ⟨hnone, hzero, hbuffer⟩ :=
    sumUp_buffer now (settleTail cfg now { r with stopped := true }).1
  have hlast := flush_due (sumUp now (settleTail cfg now { r with stopped := true }).1).1 []
  have hempty : (flush (sumUp now (settleTail cfg now { r with stopped := true }).1).1).1.due []
      = [] := by
    unfold flush
    split
    next he => simp only [due, List.isEmpty_iff.mp he, hzero, collapse, countRecord]; rfl
    next => simp only [due, hzero, collapse, countRecord]; rfl
  have hsettled := settleTail_due cfg now { r with stopped := true }
  rw [hempty, List.append_nil] at hlast
  simp only [due, hbuffer, hzero, collapse, countRecord, List.append_nil] at hlast hsettled
  simp only [stop, h, Bool.false_eq_true, if_false, handedOver_append, hnone, hlast,
    List.append_nil, hsettled, due]
  exact List.append_nil _

/-! ## Calls, rings and runs -/

/-- A call before the end moves records and makes none of its own but those of what it brings. -/
theorem call_due (cfg : Config) (now : Nat) {i : Call} (running : i ≠ .stop) {r : Recorder}
    (h : r.stopped = false) (coming : List Arrival) :
    handedOver (call cfg now i r).2 ++ (call cfg now i r).1.due coming =
        r.due (arrived r.held i.feed?.toList ++ coming) ∧
      (call cfg now i r).1.held = heldThrough r.held i.feed?.toList ∧
      (call cfg now i r).1.stopped = false := by
  cases i with
  | stop => exact absurd rfl running
  | flush =>
    simp only [call, flushNow, h, Bool.false_eq_true, if_false]
    have haside := flush_aside r
    refine ⟨?_, held_eq_of_aside haside, (stopped_eq_of_aside haside).trans h⟩
    rw [flush_due]
    rfl
  | output data =>
    simp only [call, output_of_running cfg now data h]
    have haside := showText_aside cfg now (shownText r.held data)
      { r with held := heldAfter r.held data }
    refine ⟨?_, held_eq_of_aside haside, (stopped_eq_of_aside haside).trans h⟩
    rw [showText_due]
    rfl
  | input data =>
    by_cases hskip : (data.isEmpty || isControlKey data) = true
    · simp only [call, input, hskip, Bool.true_or, if_true, Call.feed?, Option.toList_some, arrived]
      exact ⟨rfl, rfl, h⟩
    · rw [Bool.not_eq_true] at hskip
      simp only [call, input, hskip, h, Bool.or_self, Bool.false_eq_true, if_false]
      have haside := append_aside cfg now (.typed (Utf8.decode data)) r
      refine ⟨?_, held_eq_of_aside haside, (stopped_eq_of_aside haside).trans h⟩
      rw [append_due]
      simp only [due, Call.feed?, Option.toList_some, arrived, hskip, Bool.false_eq_true, if_false,
        List.singleton_append, collapse]

/-- The timer only moves records. -/
theorem ring_due (cfg : Config) (now : Nat) (r : Recorder) (coming : List Arrival) :
    handedOver (ring cfg now r).2 ++ (ring cfg now r).1.due coming = r.due coming ∧
      (ring cfg now r).1.held = r.held ∧ (ring cfg now r).1.stopped = r.stopped := by
  have hheld : (flush r).1.held = r.held := held_eq_of_aside (flush_aside r)
  have hstopped : (flush r).1.stopped = r.stopped := stopped_eq_of_aside (flush_aside r)
  exact ⟨flush_due r coming, hheld, hstopped⟩

theorem passes_due {cfg : Config} {target : Nat} {r s : Recorder} {events : List Event}
    (hp : (component cfg).Passes target r events s) (coming : List Arrival) :
    handedOver events ++ s.due coming = r.due coming ∧ s.held = r.held ∧
      s.stopped = r.stopped := by
  induction hp with
  | rest => exact ⟨rfl, rfl, rfl⟩
  | @ring r s now events _ _ _ ih =>
    obtain ⟨hring, hheld, hstopped⟩ := ring_due cfg now r coming
    refine ⟨?_, ih.2.1.trans hheld, ih.2.2.trans hstopped⟩
    rw [handedOver_append, List.append_assoc, ih.1]
    exact hring

/-- One step, whichever of them it is, keeps the batches so far and what is due together. -/
theorem step_due (cfg : Config) {s : Stage Recorder Job} {step : Stage.Step Call}
    (running : step ≠ .call .stop) (h : s.state.stopped = false) (coming : List Arrival) :
    handedOver (s.step (component cfg) step).2 ++
          (s.step (component cfg) step).1.state.due coming =
        s.state.due (arrived s.state.held (stepFeed? step).toList ++ coming) ∧
      (s.step (component cfg) step).1.state.held =
        heldThrough s.state.held (stepFeed? step).toList ∧
      (s.step (component cfg) step).1.state.stopped = false := by
  cases step with
  | call i => exact call_due cfg s.now (fun hi => running (hi ▸ rfl)) h coming
  | sleep ms =>
    obtain ⟨hdue, hheld, hstopped⟩ :=
      passes_due ((component cfg).elapse_passes (s.now + ms) s.state) coming
    exact ⟨hdue, hheld, hstopped.trans h⟩
  | hold => exact ⟨rfl, rfl, h⟩
  | release => exact ⟨rfl, rfl, h⟩

/-- And so do any number of steps. -/
theorem run_due (cfg : Config) {s : Stage Recorder Job} {steps : List (Stage.Step Call)}
    (running : .call .stop ∉ steps) (h : s.state.stopped = false) (coming : List Arrival) :
    handedOver (s.run (component cfg) steps).2 ++
          (s.run (component cfg) steps).1.state.due coming =
        s.state.due (arrived s.state.held (feeds steps) ++ coming) ∧
      (s.run (component cfg) steps).1.state.held = heldThrough s.state.held (feeds steps) ∧
      (s.run (component cfg) steps).1.state.stopped = false := by
  induction steps generalizing s with
  | nil => exact ⟨rfl, rfl, h⟩
  | cons step steps ih =>
    obtain ⟨hne, hrest⟩ := not_or.mp fun hm => running (List.mem_cons.mpr hm)
    obtain ⟨hstep, hheld, hstopped⟩ := step_due cfg (Ne.symm hne) h
      (arrived (heldThrough s.state.held (stepFeed? step).toList) (feeds steps) ++ coming)
    obtain ⟨hrun, hend, hrunning⟩ := ih hrest hstopped
    rw [hheld] at hrun hend
    rw [feeds_cons, arrived_append, heldThrough_append, List.append_assoc]
    refine ⟨?_, hend, hrunning⟩
    rw [← hstep, ← hrun, ← List.append_assoc, ← handedOver_append]
    rfl

/-- What is owed for what comes in changes no more than what is due for its texts. -/
theorem run_owed (cfg : Config) {s : Stage Recorder Job} {steps : List (Stage.Step Call)}
    (running : .call .stop ∉ steps) (h : s.state.stopped = false) (coming : List Feed) :
    handedOver (s.run (component cfg) steps).2 ++
          (s.run (component cfg) steps).1.state.owed coming =
        s.state.owed (feeds steps ++ coming) ∧
      (s.run (component cfg) steps).1.state.stopped = false := by
  obtain ⟨hdue, hheld, hstopped⟩ := run_due cfg running h
    (arrivals (s.run (component cfg) steps).1.state.held coming)
  refine ⟨?_, hstopped⟩
  rw [owed, hdue, owed, arrivals_append, hheld]

/-! ## From the beginning to the end -/

/-- A recorder begun at an instant, with a worker for whom so many jobs may wait. -/
def opening (cfg : Config) (now capacity : Nat) : Stage Recorder Job :=
  { now, state := start cfg now, worker := { capacity } }

/-- Settings with which a few bytes fill a buffer. -/
def smallBuffer : Config := ⟨4, 1200, Nat.succ_pos _, Nat.succ_pos _⟩

/-- The recorder after some steps and its end, when the worker has gone on. -/
def ending (cfg : Config) (now capacity : Nat) (steps : List (Stage.Step Call)) :
    Stage Recorder Job :=
  ((opening cfg now capacity).run (component cfg) steps).1.finish (component cfg) .stop

/-- The batches that the worker of a recorder has kept. -/
def keptBatches (s : Stage Recorder Job) : List (List Stamped) := s.worker.done.filterMap Job.batch?

/-- The worker of a recorder that has ended has been given a job for each batch handed over. -/
theorem ending_accounts (cfg : Config) (now capacity : Nat) (steps : List (Stage.Step Call)) :
    (ending cfg now capacity steps).worker.Accounts
      (((opening cfg now capacity).run (component cfg)
        (steps ++ [.call .stop, .release])).2.filterMap Event.job?) := by
  have haccounts := Stage.run_accounts (component cfg) (s := opening cfg now capacity)
    (Worker.accounts_nil capacity) (steps ++ [.call .stop, .release])
  rw [Stage.run_append] at haccounts ⊢
  exact haccounts

/-- A worker who is never held up drops none of them. -/
theorem ending_dropped_of_free (cfg : Config) (now capacity : Nat)
    {steps : List (Stage.Step Call)} (never : .hold ∉ steps) :
    (ending cfg now capacity steps).worker.dropped = 0 := by
  have hnever : .hold ∉ steps ++ [.call Call.stop, .release] := by
    simpa only [List.mem_append, List.mem_cons, List.not_mem_nil, reduceCtorEq, or_false]
      using never
  have hworker := Stage.run_worker_of_free (component cfg) (s := opening cfg now capacity) rfl
    hnever rfl
  rw [Stage.run_append] at hworker
  exact congrArg Worker.dropped hworker

/-- A worker who drops none keeps the records of all batches handed over. -/
theorem keptBatches_records (cfg : Config) (now capacity : Nat) {steps : List (Stage.Step Call)}
    (none_dropped : (ending cfg now capacity steps).worker.dropped = 0) :
    (keptBatches (ending cfg now capacity steps)).flatten.map (·.record) =
      handedOver ((opening cfg now capacity).run (component cfg)
        (steps ++ [.call .stop, .release])).2 := by
  have hdone := (ending_accounts cfg now capacity steps).kept_eq none_dropped
  have hqueue : (ending cfg now capacity steps).worker.queue = [] := rfl
  rw [hqueue, List.append_nil] at hdone
  rw [keptBatches, hdone, batch?_jobs]
  rfl

/-- Once the recorder is stopped, the batches handed over make up the transcript. -/
theorem handedOver_to_stop (cfg : Config) (now capacity : Nat) {steps : List (Stage.Step Call)}
    (running : .call .stop ∉ steps) :
    handedOver ((opening cfg now capacity).run (component cfg) (steps ++ [.call .stop])).2 =
      transcript (feeds steps) := by
  obtain ⟨hrun, hstopped⟩ :=
    run_owed cfg (s := opening cfg now capacity) running rfl []
  have hstop := stop_due cfg ((opening cfg now capacity).run (component cfg) steps).1.now hstopped
  rw [Stage.run_append, handedOver_append]
  simp only [Stage.run, List.append_nil]
  refine Eq.trans ?_ (hrun.trans ?_)
  · exact congrArg (handedOver _ ++ ·) hstop
  · rw [List.append_nil]
    rfl

/-- Nothing more is handed over when the worker goes on. -/
theorem handedOver_to_end (cfg : Config) (now capacity : Nat) {steps : List (Stage.Step Call)}
    (running : .call .stop ∉ steps) :
    handedOver ((opening cfg now capacity).run (component cfg)
        (steps ++ [.call .stop, .release])).2 = transcript (feeds steps) := by
  have hsteps : steps ++ [.call .stop, .release] = (steps ++ [.call .stop]) ++ [.release] :=
    (List.append_assoc steps [.call .stop] [.release]).symm
  rw [hsteps, Stage.run_append, handedOver_append, handedOver_to_stop cfg now capacity running]
  exact List.append_nil _

/-- **Nothing is lost, doubled or moved between the four ways of handing over.** However the steps
of a session wait, flush and hold the worker up, and whatever the threshold and the interval, the
batches kept by a worker who drops none hold together the transcript of what came in, and their
lines are the lines of that transcript, but for the times. -/
theorem keptBatches_eq_transcript (cfg : Config) (now capacity : Nat)
    (steps : List (Stage.Step Call)) (running : .call .stop ∉ steps)
    (none_dropped : (ending cfg now capacity steps).worker.dropped = 0) (time : Int) :
    (keptBatches (ending cfg now capacity steps)).flatten.map (·.record) =
        transcript (feeds steps) ∧
      (keptBatches (ending cfg now capacity steps)).flatMap (Stamped.writeAll fun _ => time) =
        Entry.writeAll ((transcript (feeds steps)).map (Record.entry time)) := by
  have hdone := (ending_accounts cfg now capacity steps).kept_eq none_dropped
  have hqueue : (ending cfg now capacity steps).worker.queue = [] := rfl
  rw [hqueue, List.append_nil] at hdone
  have hrecords : (keptBatches (ending cfg now capacity steps)).flatten.map (·.record) =
      transcript (feeds steps) := by
    rw [keptBatches, hdone, batch?_jobs]
    exact handedOver_to_end cfg now capacity running
  exact ⟨hrecords, by rw [Stamped.writeAll_flatten, hrecords]⟩

/-- A session that shows a text, is silent for two intervals, and then turns a spinner twice. -/
def spinning : List (Stage.Step Call) :=
  [.call (.output [0x61, 0x62]), .sleep 2500, .call (.input [0x79, 0x0A]), .call (.output [0x7C]),
    .call .flush, .sleep 10, .call (.output [0x7C])]

theorem keptBatches_of_spinning :
    .call .stop ∉ spinning ∧
      (ending ⟨4, 1000, by decide, by decide⟩ 0 1 spinning).worker.dropped = 0 ∧
      (keptBatches (ending ⟨4, 1000, by decide, by decide⟩ 0 1 spinning)).flatten.map (·.record) =
        [.shown ['a', 'b'], .typed ['y', '\n'], .shown ['|'], .repeated 1] := by
  have running : .call .stop ∉ spinning := by
    simp only [spinning, List.mem_cons, List.not_mem_nil, Stage.Step.call.injEq, reduceCtorEq,
      or_self, not_false_eq_true]
  have never : .hold ∉ spinning := by
    simp only [spinning, List.mem_cons, List.not_mem_nil, reduceCtorEq, or_self,
      not_false_eq_true]
  have dropped := ending_dropped_of_free ⟨4, 1000, by decide, by decide⟩ 0 1 never
  have arrived : arrivals [] (feeds spinning) =
      [.shown ['a', 'b'], .typed ['y', '\n'], .shown ['|'], .shown ['|']] := by decide +kernel
  refine ⟨running, dropped, ?_⟩
  rw [(keptBatches_eq_transcript ⟨4, 1000, by decide, by decide⟩ 0 1 spinning running dropped 0).1,
    transcript, arrived]
  decide

end Recorder

end TerminalSession
