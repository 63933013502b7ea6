import TerminalSession.Proofs.Classifier.Told

/-!
# The instants at which a session falls idle

A session falls idle at an instant exactly if just before it the classifier runs and the session is
active, a whole number of idle timeouts has gone by since output last came, and the last change of
status is at least a debounce interval old. `falls_idle_iff` says so of every instant of every run,
in terms of the steps taken before it: which output came and when, and which changes were accepted.

One instant is settled by what the timer does there (`mem_instant_iff`). A wait is cut just before
the instant and just after it (`mem_wait_iff`), since what is accepted in a wait is accepted within
it (`passes_times`). A run is an induction over its steps (`mem_run_iff`).

With a debounce interval of at most the idle timeout the debounce never matters, as an active
session has not changed since output last came (`Fresh`): it then falls idle after one idle timeout,
and is never found active later.

The worker's queue plays no part in any of this.
-/

set_option autoImplicit false

namespace TerminalSession.Classifier

/-- The change by which a session falls idle at an instant. -/
def fallsIdle (time : Nat) : Accepted :=
  { time, change := { previous := .active, current := .idle } }

/-! ## When changes are accepted, and which -/

theorem Moved.time_eq {cfg : Config} {now : Nat} {status : Status} {last : Option Nat}
    {c : Classifier} {events : List Event} (h : Moved cfg now status last c events) :
    ∀ a ∈ accepted events, a.time = now := by
  intro a ha
  cases h with
  | none hnone =>
    rw [hnone] at ha
    cases ha
  | one next hone =>
    rw [hone] at ha
    cases List.mem_singleton.mp ha
    rfl

/-- What is accepted while time passes is accepted after its beginning and by its end. -/
theorem passes_times {cfg : Config} {now later : Nat} {c c' : Classifier} {events : List Event}
    (hp : (component cfg).Passes later c events c') (hawake : Awake now c) :
    ∀ a ∈ accepted events, now < a.time ∧ a.time ≤ later := by
  induction hp generalizing now with
  | rest _ => intro a ha; cases ha
  | @ring c t due events hdue hle _ ih =>
    intro a ha
    have hahead : now < due := hawake due hdue
    rw [accepted_append] at ha
    rcases List.mem_append.mp ha with ha | ha
    · rw [(ring_moved cfg due c).time_eq a ha]
      exact ⟨hahead, hle⟩
    · obtain ⟨hafter, hby⟩ := ih (fun _ hn => alarm_ring cfg hdue hn) a ha
      exact ⟨Nat.lt_trans hahead hafter, hby⟩

theorem setStatus_accepted (cfg : Config) (now : Nat) (next : Status) (c : Classifier) :
    accepted (setStatus cfg now next c).2 =
      if next = c.status ∨ c.status = .exited ∨ c.isDebounced cfg now = true then []
      else [{ time := now, change := { previous := c.status, current := next } }] := by
  unfold setStatus
  by_cases hsame : next = c.status
  · simp [hsame, accepted]
  by_cases hexited : c.status = .exited
  · simp [hexited, accepted]
  by_cases hsoon : c.isDebounced cfg now = true
  · simp [hsame, hexited, hsoon, accepted, Event.accepted?]
  · simp [hsame, hexited, hsoon, accepted, Event.accepted?]

/-- Being told something makes no session fall idle. -/
theorem fallsIdle_not_mem_call (cfg : Config) (time now : Nat) (i : Call) (c : Classifier) :
    fallsIdle time ∉ accepted (call cfg now i c).2 := by
  have hset {next : Status} (hnext : next ≠ .idle) (c : Classifier) :
      fallsIdle time ∉ accepted (setStatus cfg now next c).2 := by
    rw [setStatus_accepted]
    split
    · exact List.not_mem_nil
    · intro hmem
      exact hnext (congrArg (·.change.current) (List.mem_singleton.mp hmem)).symm
  cases i with
  | output data =>
    simp only [call, output]
    split
    · exact List.not_mem_nil
    · refine hset (fun hidle => ?_) _
      rcases candidate_cases cfg (tailWindow cfg.windowBytes (c.window ++ data)) with h | h <;>
        cases h.symm.trans hidle
  | exit =>
    simp only [call, exit]
    split
    · exact List.not_mem_nil
    · exact hset (by decide) c
  | stop =>
    simp only [call, stop]
    split <;> exact List.not_mem_nil

/-- Judging a silent session makes it fall idle exactly if it is active and its last change is old
enough. -/
theorem fallsIdle_mem_judge {cfg : Config} {now : Nat} {c : Classifier}
    (h : cfg.idleTimeout ≤ now - c.lastOutput) :
    fallsIdle now ∈ accepted (judge cfg now c).2 ↔
      c.status = .active ∧ c.isDebounced cfg now = false := by
  unfold judge
  by_cases hactive : c.status = .active
  · have haccepted (moved : List Event) :
        accepted (.silent now (now - c.lastOutput) :: moved) = accepted moved := rfl
    simp only [hactive, h, decide_true, Bool.and_self, if_true, haccepted, setStatus_accepted,
      true_and]
    cases c.isDebounced cfg now with
    | false => simp [fallsIdle]
    | true => simp
  · simp [hactive, accepted]

/-! ## One instant -/

/-- Just before an instant, a running classifier is about to let its session fall idle. -/
def AboutToFall (cfg : Config) (time : Nat) (c : Classifier) : Prop :=
  c.stopped = false ∧ FallsSilent cfg (time - 1) time c

theorem mem_instant_iff {cfg : Config} {now : Nat} {c : Classifier} {past : List Event}
    (h : Reached cfg now c past) :
    fallsIdle (now + 1) ∈ accepted ((component cfg).elapse (now + 1) c).2 ↔
      AboutToFall cfg (now + 1) c := by
  unfold AboutToFall
  rw [Nat.add_sub_cancel]
  cases hstopped : c.stopped with
  | true => simp [(frozen_of_stopped cfg hstopped).elapse, accepted]
  | false =>
    have harmed := h.2 hstopped
    simp only [true_and]
    have hwake : now + 1 ≤ c.wake := harmed.ahead
    rcases Nat.lt_or_eq_of_le hwake with hbeyond | hdue
    · -- Nothing rings, and the deadline lies beyond.
      have hquiet : ∀ due ∈ (component cfg).alarm c, now + 1 < due := by
        intro due hd
        rw [(eq_wake_of_alarm hd).2]
        exact hbeyond
      have hawake := harmed.awake_of_early (Nat.lt_of_lt_of_le hbeyond harmed.wakes)
      simp [Component.elapse_of_lt hquiet, accepted, hawake]
    · have hring : (component cfg).elapse (now + 1) c = ring cfg c.wake c := by
        rw [hdue]
        exact Component.elapse_of_ring (alarm_of_running hstopped)
      rw [hring, hdue]
      rcases Nat.lt_or_eq_of_le harmed.wakes with hearly | hlate
      · have hawake := harmed.awake_of_early hearly
        simp [ring_early cfg hearly, accepted, hawake]
      · have hjudged : (ring cfg c.wake c).2 = (judge cfg c.wake c).2 := by
          rw [ring, if_neg (by omega)]
        rw [hjudged, fallsIdle_mem_judge (hlate ▸ harmed.idleTimeout_le),
          harmed.fallsSilent_iff hlate h.1.1.before]

/-- An active session is idle at the next instant exactly if it is about to fall. -/
theorem elapse_idle_iff {cfg : Config} {now : Nat} {c : Classifier} {past : List Event}
    (h : Reached cfg now c past) (hactive : c.status = .active) :
    ((component cfg).elapse (now + 1) c).1.status = .idle ↔ AboutToFall cfg (now + 1) c := by
  unfold AboutToFall
  rw [Nat.add_sub_cancel]
  cases hstopped : c.stopped with
  | true => simp [(frozen_of_stopped cfg hstopped).elapse, hactive]
  | false =>
    obtain ⟨hwaited, -⟩ := passes_waited ((component cfg).elapse_passes (now + 1) c) hstopped
      (h.2 hstopped) h.1.1.before
    cases hwaited with
    | awake hnot hstatus => simp [hstatus, hactive, hnot]
    | asleep t hfalls _ _ hstatus => simp [hstatus, hfalls]

/-! ## A wait, a step, a run -/

/-- In a wait a session falls idle at an instant exactly if the instant lies in it and the session
is about to fall just before. -/
theorem mem_wait_iff {cfg : Config} {now later time : Nat} {c : Classifier} {past : List Event}
    (h : Reached cfg now c past) :
    fallsIdle time ∈ accepted ((component cfg).elapse later c).2 ↔
      now < time ∧ time ≤ later ∧ AboutToFall cfg time ((component cfg).elapse (time - 1) c).1 := by
  have htimes := passes_times ((component cfg).elapse_passes later c) h.1.2
  by_cases hin : now < time ∧ time ≤ later
  · obtain ⟨hafter, hby⟩ := hin
    obtain ⟨just, rfl⟩ : ∃ just, time = just + 1 := ⟨time - 1, by omega⟩
    have hnow : now ≤ just := Nat.le_of_lt_succ hafter
    rw [Nat.add_sub_cancel]
    have hjust : Reached cfg just ((component cfg).elapse just c).1
        (past ++ ((component cfg).elapse just c).2) :=
      (reached_keeps cfg).passes ((component cfg).elapse_passes just c) hnow h
    have hnext := (reached_keeps cfg).passes ((component cfg).elapse_passes (just + 1) _)
      (Nat.le_succ just) hjust
    -- Accepted before the instant, at it, and after it.
    rw [(component cfg).elapse_split (Nat.le_trans (Nat.le_succ just) hby) c,
      (component cfg).elapse_split hby, accepted_append, accepted_append, List.mem_append,
      List.mem_append, mem_instant_iff hjust]
    have hfirst : fallsIdle (just + 1) ∉ accepted ((component cfg).elapse just c).2 := by
      intro hmem
      have hle := (passes_times ((component cfg).elapse_passes just c) h.1.2 _ hmem).2
      exact Nat.not_succ_le_self just hle
    have hlast : fallsIdle (just + 1) ∉ accepted ((component cfg).elapse later
        ((component cfg).elapse (just + 1) ((component cfg).elapse just c).1).1).2 := by
      intro hmem
      have hlt := (passes_times ((component cfg).elapse_passes later _) hnext.1.2 _ hmem).1
      exact Nat.lt_irrefl _ hlt
    simp only [hfirst, hlast, hafter, hby, false_or, or_false, true_and]
  · constructor
    · intro hmem
      exact absurd (htimes _ hmem) hin
    · intro hfalls
      exact absurd ⟨hfalls.1, hfalls.2.1⟩ hin

theorem mem_step_iff {cfg : Config} {s : Stage Classifier Job} {past : List Event} (time : Nat)
    (h : Reached cfg s.now s.state past) (step : Stage.Step Call) :
    fallsIdle time ∈ accepted (s.step (component cfg) step).2 ↔
      s.now < time ∧ time ≤ s.now + step.duration ∧
        AboutToFall cfg time
          (s.step (component cfg) (step.within (time - 1 - s.now))).1.state := by
  have hno {p q : Prop} (hp : ¬p) : p ↔ s.now < time ∧ time ≤ s.now + 0 ∧ q :=
    iff_of_false hp fun hq => by omega
  cases step with
  | call i => exact hno (fallsIdle_not_mem_call cfg time s.now i s.state)
  | hold => exact hno List.not_mem_nil
  | release => exact hno List.not_mem_nil
  | sleep ms =>
    refine (mem_wait_iff h).trans (and_congr_right fun hafter => and_congr_right fun hby => ?_)
    have hlimit : s.now + min ms (time - 1 - s.now) = time - 1 := by
      omega
    simp only [Stage.Step.within, Stage.step, Stage.after, hlimit]

theorem mem_run_iff {cfg : Config} {s : Stage Classifier Job} {past : List Event} (time : Nat)
    (h : Reached cfg s.now s.state past) (steps : List (Stage.Step Call)) :
    fallsIdle time ∈ accepted (s.run (component cfg) steps).2 ↔
      s.now < time ∧ time ≤ (s.run (component cfg) steps).1.now ∧
        AboutToFall cfg time
          (s.run (component cfg) (Stage.before time s.now steps)).1.state := by
  induction steps generalizing s past with
  | nil =>
    refine iff_of_false List.not_mem_nil fun ⟨hafter, hby, _⟩ => ?_
    exact absurd hafter (Nat.not_lt.mpr hby)
  | cons step steps ih =>
    have hnow := Stage.step_now (component cfg) s step
    have hend := Stage.le_run_now (component cfg) (s.step (component cfg) step).1 steps
    have hkept : Reached cfg (s.step (component cfg) step).1.now
        (s.step (component cfg) step).1.state (past ++ (s.step (component cfg) step).2) :=
      (reached_keeps cfg).step (fun _ _ => trivial) h
    have hstep := mem_step_iff time h step
    have hrest := ih hkept
    simp only [Stage.run, accepted_append, List.mem_append, hstep, hrest]
    by_cases hbegun : time ≤ s.now
    · have hlate : ¬s.now < time := Nat.not_lt.mpr hbegun
      have hlater : ¬(s.step (component cfg) step).1.now < time := by omega
      simp [hlate, hlater]
    · rw [Stage.before, if_neg hbegun]
      by_cases hin : time ≤ s.now + step.duration
      · -- The instant comes in this step.
        have hlater : ¬(s.step (component cfg) step).1.now < time := by omega
        have hby : time ≤ (Stage.run (component cfg) (s.step (component cfg) step).1 steps).1.now :=
          by omega
        simp [Stage.before_of_le hin, Stage.run, hin, hlater, hby]
      · have hwhole : step.within (time - 1 - s.now) = step := Stage.Step.within_eq_self (by omega)
        have hafter : (s.step (component cfg) step).1.now < time := by omega
        have hbegun' : s.now < time := Nat.lt_of_not_le hbegun
        simp [hwhole, Stage.run, hafter, hbegun', ← hnow]

/-! ## When the debounce does not matter -/

/-- The setter changes nothing, or the status and the last change alone. -/
theorem setStatus_cases (cfg : Config) (now : Nat) (next : Status) (c : Classifier) :
    (setStatus cfg now next c).1 = c ∨
      (setStatus cfg now next c).1 = { c with status := next, lastChange := some now } := by
  unfold setStatus
  split
  · exact .inl rfl
  · dsimp only
    split
    · exact .inl rfl
    · exact .inr rfl

/-- An active session has not changed since output last came, and is judged one idle timeout after
that. -/
structure Fresh (cfg : Config) (c : Classifier) : Prop where
  deadline : c.status = .active → c.deadline = c.lastOutput + cfg.idleTimeout
  unchanged : c.status = .active → ∀ t ∈ c.lastChange, t ≤ c.lastOutput

theorem Fresh.of_ne {cfg : Config} {c : Classifier} (h : c.status ≠ .active) : Fresh cfg c :=
  ⟨fun hactive => absurd hactive h, fun hactive => absurd hactive h⟩

theorem Fresh.call {cfg : Config} {now : Nat} {c : Classifier} (h : Fresh cfg c)
    (before : ∀ t ∈ c.lastChange, t ≤ now) (i : Call) : Fresh cfg (call cfg now i c).1 := by
  cases i with
  | output data =>
    simp only [Classifier.call, output]
    split
    · exact h
    · have hput := setStatus_cases cfg now
        (candidate cfg (tailWindow cfg.windowBytes (c.window ++ data)))
        { c with
          window := tailWindow cfg.windowBytes (c.window ++ data)
          lastOutput := now
          deadline := now + cfg.idleTimeout }
      rcases hput with hput | hput
      · rw [hput]
        exact ⟨fun _ => rfl, fun _ => before⟩
      · rw [hput]
        refine ⟨fun _ => rfl, fun _ t ht => ?_⟩
        cases ht
        exact Nat.le_refl _
  | exit =>
    simp only [Classifier.call, exit]
    split
    · exact h
    · rcases setStatus_cases cfg now .exited c with hput | hput
      · rw [hput]
        exact h
      · rw [hput]
        exact .of_ne (by simp)
  | stop =>
    simp only [Classifier.call, stop]
    split
    · exact h
    · exact ⟨h.deadline, h.unchanged⟩

/-- An active session whose deadline has come falls idle there. -/
theorem Fresh.ring {cfg : Config} {now : Nat} {c : Classifier} (h : Fresh cfg c)
    (hshort : cfg.debounce ≤ cfg.idleTimeout) (harmed : Armed cfg now c) :
    Fresh cfg (ring cfg c.wake c).1 := by
  rcases Nat.lt_or_eq_of_le harmed.wakes with hearly | hlate
  · rw [ring_early cfg hearly]
    exact ⟨h.deadline, h.unchanged⟩
  · rw [ring_late cfg hlate]
    rcases judge_cases (hlate ▸ harmed.idleTimeout_le) with ⟨-, -, hjudged⟩ | ⟨hkept, hjudged⟩
    · rw [hjudged]
      exact .of_ne (by simp)
    · rw [hjudged]
      refine .of_ne fun hactive => hkept ⟨hactive, ?_⟩
      have hdeadline := h.deadline hactive
      rw [isDebounced_eq_false_iff]
      intro t ht
      have hle := h.unchanged hactive t ht
      omega

theorem fresh_keeps {cfg : Config} (hshort : cfg.debounce ≤ cfg.idleTimeout) :
    Stage.Keeps (component cfg) (fun _ => True) fun now c past =>
      Reached cfg now c past ∧ Fresh cfg c where
  call ok h := ⟨(reached_keeps cfg).call ok h.1, h.2.call h.1.1.1.before _⟩
  ring := by
    intro now due c past hdue h
    refine ⟨(reached_keeps cfg).ring hdue h.1, ?_⟩
    obtain ⟨hrunning, rfl⟩ := eq_wake_of_alarm hdue
    exact h.2.ring hshort (h.1.2 hrunning)
  wait le beyond h := ⟨(reached_keeps cfg).wait le beyond h.1, h.2⟩

theorem run_fresh {cfg : Config} (hshort : cfg.debounce ≤ cfg.idleTimeout) (began capacity : Nat)
    (steps : List (Stage.Step Call)) :
    Fresh cfg ((opening cfg began capacity).run (component cfg) steps).1.state := by
  have hopening : Fresh cfg (opening cfg began capacity).state := ⟨fun _ => rfl, nofun⟩
  have h := (fresh_keeps hshort).run (s := opening cfg began capacity)
    (fun i (_ : .call i ∈ steps) => trivial) ⟨opening_reached cfg began, hopening⟩
  exact h.2

/-- A fresh session that is active has not been silent for an idle timeout. -/
theorem Fresh.lt {cfg : Config} {now : Nat} {c : Classifier} (h : Fresh cfg c)
    (harmed : Armed cfg now c) (hactive : c.status = .active) :
    now < c.lastOutput + cfg.idleTimeout := by
  have hdeadline := h.deadline hactive
  have hahead := harmed.ahead
  have hwakes := harmed.wakes
  omega

/-! ## The law -/

/-- What lets a session fall idle at an instant, said of the steps taken before it. -/
structure FallsDue (cfg : Config) (began capacity : Nat) (past : List (Stage.Step Call))
    (time : Nat) : Prop where
  running : .call .stop ∉ past
  active : ((opening cfg began capacity).run (component cfg) past).1.state.status = .active
  silent : ∃ k, 1 ≤ k ∧ time = lastOutputAt began past + k * cfg.idleTimeout
  old : ∀ a ∈ (accepted ((opening cfg began capacity).run (component cfg) past).2).getLast?,
    a.time + cfg.debounce ≤ time

/-- The status goes from active to idle at an instant of a run: it is active after the steps taken
before the instant, and idle once the timers due at it have gone off. -/
structure GoesIdle (cfg : Config) (began capacity : Nat) (steps : List (Stage.Step Call))
    (time : Nat) : Prop where
  begun : began < time
  reached : time ≤ ((opening cfg began capacity).run (component cfg) steps).1.now
  active : ((opening cfg began capacity).run (component cfg)
    (Stage.before time began steps)).1.state.status = .active
  idle : ((opening cfg began capacity).run (component cfg)
    (Stage.before time began steps ++ [.sleep 1])).1.state.status = .idle

/-- What is about to happen, said of the steps. -/
theorem aboutToFall_iff (cfg : Config) {began time : Nat} (capacity : Nat)
    (past : List (Stage.Step Call)) (hbegun : began < time) :
    AboutToFall cfg time ((opening cfg began capacity).run (component cfg) past).1.state ↔
      FallsDue cfg began capacity past time := by
  have hrunning := run_running_iff cfg began capacity past
  have hlast := (run_history cfg began capacity past).last
  have hold : (∀ t ∈ ((opening cfg began capacity).run (component cfg) past).1.state.lastChange,
      t + cfg.debounce ≤ time) ↔
      ∀ a ∈ (accepted ((opening cfg began capacity).run (component cfg) past).2).getLast?,
        a.time + cfg.debounce ≤ time := by
    rw [hlast]
    simp
  have honeMore (more : Nat) (hnever : .call .stop ∉ past) :
      silence cfg ((opening cfg began capacity).run (component cfg) past).1.state more =
        lastOutputAt began past + (more + 1) * cfg.idleTimeout := by
    rw [silence, run_lastOutput cfg began capacity hnever]
  constructor
  · rintro ⟨hruns, hactive, more, hlt, hle, hfree⟩
    have hnever := hrunning.mp hruns
    have htime : silence cfg ((opening cfg began capacity).run (component cfg) past).1.state more =
        time := by omega
    refine ⟨hnever, hactive, ⟨more + 1, Nat.succ_pos more, ?_⟩, hold.mp (htime ▸ hfree)⟩
    rw [← htime, honeMore more hnever]
  · rintro ⟨hnever, hactive, ⟨k, hk, htime⟩, hfree⟩
    obtain ⟨more, rfl⟩ : ∃ more, k = more + 1 := ⟨k - 1, by omega⟩
    rw [← honeMore more hnever] at htime
    refine ⟨hrunning.mpr hnever, hactive, more, by omega, by omega, ?_⟩
    rw [← htime]
    exact hold.mpr hfree

theorem mem_opening_run_iff (cfg : Config) (began capacity : Nat)
    (steps : List (Stage.Step Call)) (time : Nat) :
    fallsIdle time ∈ accepted ((opening cfg began capacity).run (component cfg) steps).2 ↔
      began < time ∧ time ≤ ((opening cfg began capacity).run (component cfg) steps).1.now ∧
        AboutToFall cfg time
          ((opening cfg began capacity).run (component cfg)
            (Stage.before time began steps)).1.state :=
  mem_run_iff time (opening_reached cfg began) steps

theorem fallsIdle_mem_run_iff (cfg : Config) (began capacity : Nat)
    (steps : List (Stage.Step Call)) (time : Nat) :
    fallsIdle time ∈ accepted ((opening cfg began capacity).run (component cfg) steps).2 ↔
      time ≤ ((opening cfg began capacity).run (component cfg) steps).1.now ∧
        FallsDue cfg began capacity (Stage.before time began steps) time := by
  rw [mem_opening_run_iff]
  constructor
  · rintro ⟨hbegun, hby, hfalls⟩
    exact ⟨hby, (aboutToFall_iff cfg capacity _ hbegun).mp hfalls⟩
  · rintro ⟨hby, hdue⟩
    have hbegun : began < time := by
      obtain ⟨k, hk, htime⟩ := hdue.silent
      have hle := le_lastOutputAt began (Stage.before time began steps)
      have hpos := Nat.mul_pos hk cfg.idleTimeout_pos
      omega
    exact ⟨hbegun, hby, (aboutToFall_iff cfg capacity _ hbegun).mpr hdue⟩

/-- The steps taken before an instant lead to the one just before it. -/
theorem before_now_succ {cfg : Config} {began capacity time : Nat} {steps : List (Stage.Step Call)}
    (hbegun : began < time)
    (hby : time ≤ ((opening cfg began capacity).run (component cfg) steps).1.now) :
    ((opening cfg began capacity).run (component cfg) (Stage.before time began steps)).1.now + 1 =
      time := by
  have hjust : ((opening cfg began capacity).run (component cfg)
      (Stage.before time began steps)).1.now = time - 1 :=
    Stage.run_before_now (component cfg) (s := opening cfg began capacity) hbegun hby
  omega

theorem goesIdle_iff (cfg : Config) (began capacity : Nat) (steps : List (Stage.Step Call))
    (time : Nat) :
    GoesIdle cfg began capacity steps time ↔
      fallsIdle time ∈ accepted ((opening cfg began capacity).run (component cfg) steps).2 := by
  have hmem := mem_opening_run_iff cfg began capacity steps time
  have hreached := run_reached cfg began capacity (Stage.before time began steps)
  have hending : ((opening cfg began capacity).run (component cfg)
      (Stage.before time began steps ++ [.sleep 1])).1.state =
        ((component cfg).elapse (((opening cfg began capacity).run (component cfg)
          (Stage.before time began steps)).1.now + 1) ((opening cfg began capacity).run
            (component cfg) (Stage.before time began steps)).1.state).1 := by
    rw [Stage.run_append]
    rfl
  constructor
  · rintro ⟨hbegun, hby, hactive, hidle⟩
    rw [hending, elapse_idle_iff hreached hactive, before_now_succ hbegun hby] at hidle
    exact hmem.mpr ⟨hbegun, hby, hidle⟩
  · intro hfalls
    obtain ⟨hbegun, hby, habout⟩ := hmem.mp hfalls
    have hactive := habout.2.1
    refine ⟨hbegun, hby, hactive, ?_⟩
    rw [hending, elapse_idle_iff hreached hactive, before_now_succ hbegun hby]
    exact habout

/-- Where the debounce is no longer than the idle timeout, an active session of a running classifier
has not been silent for an idle timeout. -/
theorem run_lt_of_active {cfg : Config} (hshort : cfg.debounce ≤ cfg.idleTimeout)
    (began capacity : Nat) {steps : List (Stage.Step Call)} (never : .call .stop ∉ steps)
    (hactive : ((opening cfg began capacity).run (component cfg) steps).1.state.status = .active) :
    ((opening cfg began capacity).run (component cfg) steps).1.now <
      lastOutputAt began steps + cfg.idleTimeout := by
  have hrunning := (run_running_iff cfg began capacity steps).mpr never
  have hlt := (run_fresh hshort began capacity steps).lt
    ((run_reached cfg began capacity steps).2 hrunning) hactive
  rw [run_lastOutput cfg began capacity never] at hlt
  exact hlt

/-- There it falls idle after exactly one idle timeout. -/
theorem fallsDue_iff_of_short {cfg : Config} (hshort : cfg.debounce ≤ cfg.idleTimeout)
    {began time : Nat} (capacity : Nat) {past : List (Stage.Step Call)}
    (never : .call .stop ∉ past)
    (hnow : ((opening cfg began capacity).run (component cfg) past).1.now + 1 = time) :
    FallsDue cfg began capacity past time ↔
      ((opening cfg began capacity).run (component cfg) past).1.state.status = .active ∧
        time = lastOutputAt began past + cfg.idleTimeout := by
  constructor
  · rintro ⟨-, hactive, ⟨k, hk, htime⟩, -⟩
    have hlt := run_lt_of_active hshort began capacity never hactive
    refine ⟨hactive, ?_⟩
    -- More than one idle timeout would have ended before.
    have hone : k = 1 := by
      by_contra hmore
      have hmul : 2 * cfg.idleTimeout ≤ k * cfg.idleTimeout :=
        Nat.mul_le_mul_right _ (by omega)
      have hpos := cfg.idleTimeout_pos
      omega
    rw [htime, hone, Nat.one_mul]
  · rintro ⟨hactive, htime⟩
    refine ⟨never, hactive, ⟨1, Nat.le_refl 1, by rw [htime, Nat.one_mul]⟩, fun a ha => ?_⟩
    have hunchanged := (run_fresh hshort began capacity past).unchanged hactive a.time
    rw [(run_history cfg began capacity past).last, run_lastOutput cfg began capacity never]
      at hunchanged
    have hle : a.time ≤ lastOutputAt began past :=
      hunchanged (by rw [Option.mem_def.mp ha]; rfl)
    omega

/-- **When a session falls idle.** It does so at an instant exactly if just before it the classifier
has not been stopped and the session is active, the instant is a whole number of idle timeouts after
output last came, and the last accepted change, if there is one, is at least a debounce interval
old; and that is when such a change is accepted. If the debounce interval is at most the idle
timeout, a session whose classifier runs falls idle exactly one idle timeout after output last came,
and is not active from then on until output comes. -/
theorem falls_idle_iff (cfg : Config) (began capacity : Nat) (steps : List (Stage.Step Call)) :
    let ran := fun steps => (opening cfg began capacity).run (component cfg) steps
    (∀ time,
      let due := time ≤ (ran steps).1.now ∧
        FallsDue cfg began capacity (Stage.before time began steps) time
      (GoesIdle cfg began capacity steps time ↔ due) ∧
        (fallsIdle time ∈ accepted (ran steps).2 ↔ due)) ∧
      (cfg.debounce ≤ cfg.idleTimeout → .call .stop ∉ steps →
        (lastOutputAt began steps + cfg.idleTimeout ≤ (ran steps).1.now →
          (ran steps).1.state.status ≠ .active) ∧
        ∀ time, began < time → time ≤ (ran steps).1.now →
          let past := Stage.before time began steps
          (GoesIdle cfg began capacity steps time ↔
            (ran past).1.state.status = .active ∧
              time = lastOutputAt began past + cfg.idleTimeout)) := by
  intro ran
  have hevent := fallsIdle_mem_run_iff cfg began capacity steps
  have hstatus (time : Nat) := (goesIdle_iff cfg began capacity steps time).trans (hevent time)
  refine ⟨fun time => ⟨hstatus time, hevent time⟩, fun hshort never => ⟨?_, ?_⟩⟩
  · intro hlate hactive
    have hlt := run_lt_of_active hshort began capacity never hactive
    exact Nat.not_le_of_lt hlt hlate
  · intro time hbegun hby past
    have hnever : .call .stop ∉ past := fun hmem => never (Stage.call_mem_of_mem_before hmem)
    rw [hstatus time, and_iff_right hby]
    exact fallsDue_iff_of_short hshort capacity hnever (before_now_succ hbegun hby)

end TerminalSession.Classifier
