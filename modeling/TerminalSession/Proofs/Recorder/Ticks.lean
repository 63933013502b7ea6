import TerminalSession.Proofs.Recorder.Buffer

/-!
# No record waits past a tick

A recorder's timer goes off at every whole number of intervals after its beginning. What fills the
buffer or is flushed on demand in between does not shift these instants, nor does a wait that spans
many of them: the next one is always the first tick that has not come (`OnTime.due`).

At a tick the buffer is handed over. So what is buffered was put there at the last tick or after it,
and is gone by the next (`buffered_since_tick`). A record that is made at the instant of a tick comes
after the tick and waits a whole interval at most.

## What this does NOT decide

Handing over a batch submits a job. When the worker does it is not said here.
-/

set_option autoImplicit false

namespace TerminalSession.Recorder

/-! ## Ticks -/

/-- The last tick by an instant: the largest whole number of intervals after the beginning. -/
def lastTick (cfg : Config) (began now : Nat) : Nat :=
  began + (now - began) / cfg.flushInterval * cfg.flushInterval

/-- The first tick after an instant. -/
def nextTick (cfg : Config) (began now : Nat) : Nat := lastTick cfg began now + cfg.flushInterval

section Ticks

variable (cfg : Config) {began now t : Nat}

theorem lastTick_le (h : began ≤ now) : lastTick cfg began now ≤ now := by
  have hle := Nat.div_mul_le_self (now - began) cfg.flushInterval
  rw [lastTick]
  omega

theorem lt_nextTick (began now : Nat) : now < nextTick cfg began now := by
  have hlt : now - began <
      (now - began) / cfg.flushInterval * cfg.flushInterval + cfg.flushInterval :=
    Nat.lt_div_mul_add cfg.flushInterval_pos
  rw [nextTick, lastTick]
  omega

/-- The last tick is the only one that is not later and less than an interval ago. -/
theorem lastTick_eq {count : Nat} (h : began + count * cfg.flushInterval ≤ t)
    (h' : t < began + count * cfg.flushInterval + cfg.flushInterval) :
    lastTick cfg began t = began + count * cfg.flushInterval := by
  have hcount : (t - began) / cfg.flushInterval = count := by
    apply Nat.div_eq_of_lt_le
    · omega
    · rw [Nat.succ_mul]
      omega
  rw [lastTick, hcount]

/-- Between two ticks the last tick is the same. -/
theorem lastTick_congr (h : lastTick cfg began now ≤ t) (h' : t < nextTick cfg began now) :
    lastTick cfg began t = lastTick cfg began now :=
  lastTick_eq cfg h h'

theorem lastTick_nextTick (began now : Nat) :
    lastTick cfg began (nextTick cfg began now) = nextTick cfg began now := by
  have hnext : nextTick cfg began now =
      began + ((now - began) / cfg.flushInterval + 1) * cfg.flushInterval := by
    rw [nextTick, lastTick, Nat.succ_mul, Nat.add_assoc]
  have hpos := cfg.flushInterval_pos
  rw [hnext]
  apply lastTick_eq cfg
  · exact Nat.le_refl _
  · omega

end Ticks

/-! ## What a step leaves of the timer and puts into the buffer -/

/-- No call sets the timer. -/
theorem call_nextFlush (cfg : Config) (now : Nat) (i : Call) (r : Recorder) :
    (call cfg now i r).1.nextFlush = r.nextFlush := by
  cases hstopped : r.stopped with
  | true => rw [call_of_stopped cfg now i hstopped]
  | false =>
    have hflush (s : Recorder) : (flush s).1.nextFlush = s.nextFlush :=
      congrArg (·.2.1) (flush_aside s)
    cases i with
    | output data =>
      rw [call, output_of_running cfg now data hstopped]
      exact congrArg (·.2.1) (showText_aside cfg now _ _)
    | input data =>
      rw [call, input]
      split
      · rfl
      · exact congrArg (·.2.1) (append_aside cfg now _ r)
    | flush =>
      rw [call, flushNow, hstopped, if_neg Bool.false_ne_true]
      exact hflush r
    | stop =>
      rw [call, stop_of_running cfg now hstopped]
      exact (hflush _).trans (congrArg (·.2.1) (close_aside cfg now _))

theorem eq_nextFlush_of_alarm {r : Recorder} {due : Nat} (h : alarm r = some due) :
    r.stopped = false ∧ due = r.nextFlush := by
  unfold alarm at h
  split at h
  next => cases h
  next hstopped => exact ⟨Bool.eq_false_iff.mpr hstopped, (Option.some.inj h).symm⟩

/-- A move adds nothing to the buffer that is not stamped with its instant. -/
theorem Filed.mem {cfg : Config} {r : Recorder} {now : Nat} {records : List Record}
    {moved : Recorder × List Event} (h : Filed cfg r (stamped now records) moved) {e : Stamped}
    (he : e ∈ moved.1.buffer) : e ∈ r.buffer ∨ e.time = now := by
  rcases h with hkept | hempty
  · rw [hkept.buffer] at he
    rcases List.mem_append.mp he with hold | hnew
    · exact .inl hold
    · exact .inr (time_of_mem_stamped hnew)
  · rw [hempty.buffer] at he
    cases he

theorem mem_call {cfg : Config} {r : Recorder} (h : WellKept cfg r) {now : Nat} {i : Call}
    {e : Stamped} (he : e ∈ (call cfg now i r).1.buffer) : e ∈ r.buffer ∨ e.time = now := by
  cases hstopped : r.stopped with
  | true =>
    rw [call_of_stopped cfg now i hstopped] at he
    exact .inl he
  | false =>
    by_cases hi : i = .stop
    · subst hi
      rw [call, (stop_ended cfg now hstopped h.waiting).buffer] at he
      cases he
    · obtain ⟨records, -, hfiled⟩ := call_filed cfg now hi r
      exact hfiled.mem he

theorem mem_passes {cfg : Config} {target : Nat} {r s : Recorder} {events : List Event}
    (h : (component cfg).Passes target r events s) {e : Stamped} (he : e ∈ s.buffer) :
    e ∈ r.buffer := by
  induction h with
  | rest => exact he
  | @ring r s due events _ _ _ ih =>
    have hrung : e ∈ (flush r).1.buffer := ih he
    rw [flush_buffer] at hrung
    cases hrung

/-- What is found in the buffer after a step was there before, or has been made at that instant. -/
theorem mem_step {cfg : Config} {s : Stage Recorder Job} (h : WellKept cfg s.state)
    {step : Stage.Step Call} {e : Stamped}
    (he : e ∈ (s.step (component cfg) step).1.state.buffer) :
    e ∈ s.state.buffer ∨ e.time = s.now := by
  cases step with
  | call i => exact mem_call h he
  | sleep ms => exact .inl (mem_passes ((component cfg).elapse_passes _ _) he)
  | hold => exact .inl he
  | release => exact .inl he

/-! ## From tick to tick -/

/-- The timer is set to the next tick, and what is buffered was made since the last one. -/
structure OnTime (cfg : Config) (began now : Nat) (r : Recorder) : Prop where
  begun : began ≤ now
  due : r.stopped = false → r.nextFlush = nextTick cfg began now
  since : ∀ e ∈ r.buffer, lastTick cfg began now ≤ e.time ∧ e.time ≤ now

theorem start_onTime (cfg : Config) (began : Nat) : OnTime cfg began began (start cfg began) := by
  have htick : lastTick cfg began began = began := by
    rw [lastTick, Nat.sub_self, Nat.zero_div, Nat.zero_mul, Nat.add_zero]
  refine ⟨Nat.le_refl _, ?_, nofun⟩
  intro _
  rw [nextTick, htick]
  rfl

theorem OnTime.call {cfg : Config} {began now : Nat} {r : Recorder} (h : OnTime cfg began now r)
    (hkept : WellKept cfg r) (i : Call) : OnTime cfg began now (call cfg now i r).1 := by
  refine ⟨h.begun, ?_, ?_⟩
  · intro hrunning
    rw [call_nextFlush]
    exact h.due (running_of_call hrunning)
  · intro e he
    rcases mem_call hkept he with hold | hnew
    · exact h.since e hold
    · rw [hnew]
      exact ⟨lastTick_le cfg h.begun, Nat.le_refl _⟩

theorem OnTime.ring {cfg : Config} {began now due : Nat} {r : Recorder}
    (h : OnTime cfg began now r) (hdue : alarm r = some due) :
    OnTime cfg began due (ring cfg due r).1 := by
  obtain ⟨hstopped, hset⟩ := eq_nextFlush_of_alarm hdue
  have hnext : due = nextTick cfg began now := hset.trans (h.due hstopped)
  have hlt := lt_nextTick cfg began now
  have hbegun := h.begun
  refine ⟨by omega, ?_, ?_⟩
  · intro _
    rw [nextTick, hnext, lastTick_nextTick]
    rfl
  · intro e he
    have hempty : e ∈ (flush r).1.buffer := he
    rw [flush_buffer] at hempty
    cases hempty

theorem OnTime.wait {cfg : Config} {began now later : Nat} {r : Recorder}
    (h : OnTime cfg began now r) (hkept : WellKept cfg r) (le : now ≤ later)
    (beyond : ∀ due ∈ alarm r, later < due) : OnTime cfg began later r := by
  cases hstopped : r.stopped with
  | true =>
    refine ⟨Nat.le_trans h.begun le, ?_, ?_⟩
    · intro hrunning
      rw [hstopped] at hrunning
      cases hrunning
    · rw [(hkept.ended hstopped).1]
      exact nofun
  | false =>
    have hnext := h.due hstopped
    have hlt : later < nextTick cfg began now := by
      rw [← hnext]
      apply beyond
      rw [alarm, hstopped]
      rfl
    have hsame : lastTick cfg began later = lastTick cfg began now :=
      lastTick_congr cfg (Nat.le_trans (lastTick_le cfg h.begun) le) hlt
    refine ⟨Nat.le_trans h.begun le, ?_, ?_⟩
    · intro _
      rw [hnext, nextTick, nextTick, hsame]
    · intro e he
      rw [hsame]
      exact ⟨(h.since e he).1, Nat.le_trans (h.since e he).2 le⟩

theorem onTime_keeps (cfg : Config) (began : Nat) :
    Stage.Keeps (component cfg) (fun _ => True)
      fun now r _ => WellKept cfg r ∧ OnTime cfg began now r where
  call {now _ _ i} _ h := ⟨h.1.call now i, h.2.call h.1 i⟩
  ring {_ due _ _} hdue h := ⟨h.1.ring due, h.2.ring hdue⟩
  wait le beyond h := ⟨h.1, h.2.wait h.1 le beyond⟩

/-- **No record stays in the buffer past a tick.** Whatever a recorder is told and however long it
waits in between, at every instant

- what is buffered was made at the last tick or after it, and the tick after it was made has not
  come;
- the timer, if it runs, is set to the next tick;
- and the next step adds nothing to the buffer that is not stamped with the instant of that step. -/
theorem buffered_since_tick (cfg : Config) (began capacity : Nat) (steps : List (Stage.Step Call)) :
    let s := ((opening cfg began capacity).run (component cfg) steps).1
    (∀ e ∈ s.state.buffer, lastTick cfg began s.now ≤ e.time ∧ e.time ≤ s.now ∧
        s.now < nextTick cfg began e.time) ∧
      (∀ due ∈ alarm s.state, due = nextTick cfg began s.now) ∧
      ∀ step, ∀ e ∈ (s.step (component cfg) step).1.state.buffer,
        e ∈ s.state.buffer ∨ e.time = s.now := by
  intro s
  obtain ⟨hkept, htime⟩ : WellKept cfg s.state ∧ OnTime cfg began s.now s.state :=
    (onTime_keeps cfg began).run_nil (s := opening cfg began capacity) (fun _ _ => trivial)
      ⟨start_wellKept cfg began, start_onTime cfg began⟩
  refine ⟨?_, ?_, ?_⟩
  · intro e he
    obtain ⟨hsince, hby⟩ := htime.since e he
    have hnow := lt_nextTick cfg began s.now
    have hsame : lastTick cfg began e.time = lastTick cfg began s.now :=
      lastTick_congr cfg hsince (Nat.lt_of_le_of_lt hby hnow)
    refine ⟨hsince, hby, ?_⟩
    rw [nextTick, hsame]
    exact hnow
  · intro due hdue
    obtain ⟨hstopped, hset⟩ := eq_nextFlush_of_alarm hdue
    exact hset.trans (htime.due hstopped)
  · intro step e he
    exact mem_step hkept he

end TerminalSession.Recorder
