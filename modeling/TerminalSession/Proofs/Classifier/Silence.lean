import TerminalSession.Proofs.Classifier.Chain

/-!
# When a silent session falls idle

The idle timer of a running classifier judges the session at whole multiples of the idle timeout
after its last output, and at no other instants. `Armed` says so of the timer's two instants, and
every call and every ring keeps it (`armed_keeps`). From it follows what any wait does to the
status, however often the timer wakes in it (`passes_waited`): an active session falls idle at the
first multiple at which its last change is old enough, and nothing else changes it.

A wait of the debounce interval is what comes before a session is told to have exited. The exit is
then accepted exactly if the session does not fall idle in that wait (`exit_after_wait`).

Nothing is said of what the window shows, nor of a stopped classifier.
-/

set_option autoImplicit false

namespace TerminalSession.Classifier

/-- The instant at which the session has been silent for one idle timeout and so many more, if no
output comes. -/
def silence (cfg : Config) (c : Classifier) (more : Nat) : Nat :=
  c.lastOutput + (more + 1) * cfg.idleTimeout

/-- The timer of a running classifier: it wakes ahead, at the deadline or earlier, and the deadline
is the next instant at which the session will have been silent for a whole number of idle timeouts.
-/
structure Armed (cfg : Config) (now : Nat) (c : Classifier) : Prop where
  ahead : now < c.wake
  wakes : c.wake ≤ c.deadline
  silent : ∃ more, c.deadline = silence cfg c more
  near : c.deadline ≤ now + cfg.idleTimeout

/-- A session falls idle on its own between two instants: it is active, and on the way there is an
instant at which its silence is judged and the last change is old enough. -/
def FallsSilent (cfg : Config) (now later : Nat) (c : Classifier) : Prop :=
  c.status = .active ∧ ∃ more, now < silence cfg c more ∧ silence cfg c more ≤ later ∧
    ∀ t ∈ c.lastChange, t + cfg.debounce ≤ silence cfg c more

/-- No judgement comes before the deadline. -/
theorem Armed.deadline_le {cfg : Config} {now : Nat} {c : Classifier} (h : Armed cfg now c)
    {more : Nat} (hlater : now < silence cfg c more) : c.deadline ≤ silence cfg c more := by
  obtain ⟨first, hfirst⟩ := h.silent
  have hnear := h.near
  -- Both are multiples after the last output, and less than one multiple apart.
  have hlt : (first + 1) * cfg.idleTimeout < (more + 1 + 1) * cfg.idleTimeout := by
    rw [Nat.add_mul (more + 1), Nat.one_mul]
    simp only [silence] at hfirst hlater
    omega
  have hle : first ≤ more := by
    have hcount := Nat.lt_of_mul_lt_mul_right hlt
    omega
  rw [hfirst]
  exact Nat.add_le_add_left (Nat.mul_le_mul_right _ (Nat.succ_le_succ hle)) _

/-- At the deadline the session has been silent for at least the idle timeout. -/
theorem Armed.idleTimeout_le {cfg : Config} {now : Nat} {c : Classifier} (h : Armed cfg now c) :
    cfg.idleTimeout ≤ c.deadline - c.lastOutput := by
  obtain ⟨more, hmore⟩ := h.silent
  rw [hmore, silence, Nat.add_sub_cancel_left]
  exact Nat.le_mul_of_pos_left _ (Nat.succ_pos more)

/-! ## The timer stays armed -/

/-- The timer does not depend on the status. -/
theorem Armed.setStatus {cfg : Config} {now : Nat} {c : Classifier} (h : Armed cfg now c)
    (time : Nat) (next : Status) : Armed cfg now (setStatus cfg time next c).1 := by
  obtain ⟨_, _, hframe⟩ := setStatus_frame cfg time next c
  rw [hframe]
  exact ⟨h.ahead, h.wakes, h.silent, h.near⟩

theorem Armed.call {cfg : Config} {now : Nat} {c : Classifier} (h : Armed cfg now c) (i : Call) :
    Armed cfg now (call cfg now i c).1 := by
  cases i with
  | output data =>
    simp only [Classifier.call, output]
    split
    · exact h
    · have hput : Armed cfg now { c with
          window := tailWindow cfg.windowBytes (c.window ++ data)
          lastOutput := now
          deadline := now + cfg.idleTimeout } :=
        ⟨h.ahead, Nat.le_trans h.wakes h.near, ⟨0, by rw [silence, Nat.zero_add, Nat.one_mul]⟩,
          Nat.le_refl _⟩
      exact hput.setStatus now _
  | exit =>
    simp only [Classifier.call, exit]
    split
    · exact h
    · exact h.setStatus now .exited
  | stop =>
    simp only [Classifier.call, stop]
    split
    · exact h
    · exact ⟨h.ahead, h.wakes, h.silent, h.near⟩

/-- A timer that wakes before the deadline sleeps on. -/
theorem ring_early (cfg : Config) {c : Classifier} (h : c.wake < c.deadline) :
    ring cfg c.wake c = ({ c with wake := c.deadline }, []) := by
  rw [ring, if_pos h]

/-- What judging a silent session comes to. -/
theorem judge_cases {cfg : Config} {now : Nat} {c : Classifier}
    (h : cfg.idleTimeout ≤ now - c.lastOutput) :
    (c.status = .active ∧ c.isDebounced cfg now = false ∧
        (judge cfg now c).1 = { c with status := .idle, lastChange := some now }) ∨
      (¬(c.status = .active ∧ c.isDebounced cfg now = false) ∧ (judge cfg now c).1 = c) := by
  unfold judge
  by_cases hactive : c.status = .active
  · have hmove : (decide (Status.idle = c.status) || decide (c.status = .exited)) = false := by
      rw [hactive]
      decide
    rw [if_pos (by simp only [hactive, h, decide_true, Bool.and_self])]
    simp only [Classifier.setStatus, hmove, Bool.false_eq_true, if_false]
    cases hdebounced : c.isDebounced cfg now with
    | false => exact .inl ⟨hactive, rfl, rfl⟩
    | true => exact .inr ⟨fun hg => Bool.false_ne_true hg.2.symm, rfl⟩
  · rw [if_neg (by simp only [hactive, decide_false, Bool.false_and, Bool.false_eq_true,
      not_false_eq_true])]
    exact .inr ⟨fun hg => hactive hg.1, rfl⟩

/-- A timer that wakes at the deadline is set for one idle timeout later. -/
theorem ring_late (cfg : Config) {c : Classifier} (h : c.wake = c.deadline) :
    (ring cfg c.wake c).1 =
      { (judge cfg c.wake c).1 with
        deadline := c.wake + cfg.idleTimeout
        wake := c.wake + cfg.idleTimeout } := by
  rw [ring, if_neg (by rw [h]; exact Nat.lt_irrefl _)]

/-- The deadline after the deadline. -/
theorem silence_succ (cfg : Config) (c : Classifier) (more : Nat) :
    silence cfg c more + cfg.idleTimeout = silence cfg c (more + 1) := by
  rw [silence, silence, Nat.add_mul (more + 1), Nat.one_mul, Nat.add_assoc]

theorem Armed.ring {cfg : Config} {now : Nat} {c : Classifier} (h : Armed cfg now c) :
    Armed cfg c.wake (ring cfg c.wake c).1 := by
  rcases Nat.lt_or_eq_of_le h.wakes with hearly | hlate
  · rw [ring_early cfg hearly]
    exact ⟨hearly, Nat.le_refl _, h.silent, Nat.le_trans h.near (Nat.add_le_add_right
      (Nat.le_of_lt h.ahead) _)⟩
  · have hnext : c.wake < c.wake + cfg.idleTimeout := Nat.lt_add_of_pos_right cfg.idleTimeout_pos
    obtain ⟨more, hmore⟩ := h.silent
    have hsilent : c.wake + cfg.idleTimeout = silence cfg c (more + 1) := by
      rw [hlate, hmore, silence_succ]
    rw [ring_late cfg hlate]
    rcases judge_cases (hlate ▸ h.idleTimeout_le) with ⟨-, -, hjudged⟩ | ⟨-, hjudged⟩
    · rw [hjudged]
      exact ⟨hnext, Nat.le_refl _, ⟨more + 1, hsilent⟩, Nat.le_refl _⟩
    · rw [hjudged]
      exact ⟨hnext, Nat.le_refl _, ⟨more + 1, hsilent⟩, Nat.le_refl _⟩

theorem eq_wake_of_alarm {c : Classifier} {due : Nat} (h : alarm c = some due) :
    c.stopped = false ∧ due = c.wake := by
  unfold alarm at h
  split at h
  next => cases h
  next hrunning => exact ⟨Bool.eq_false_iff.mpr hrunning, (Option.some.inj h).symm⟩

theorem alarm_of_running {c : Classifier} (h : c.stopped = false) : alarm c = some c.wake := by
  rw [alarm, h, if_neg Bool.false_ne_true]

/-- No call starts a stopped classifier again. -/
theorem running_of_call {cfg : Config} {now : Nat} {i : Call} {c : Classifier}
    (h : (call cfg now i c).1.stopped = false) : c.stopped = false := by
  cases hstopped : c.stopped with
  | false => rfl
  | true =>
    rw [call_of_stopped cfg now i hstopped, hstopped] at h
    exact h

/-- Every call and every ring keeps the timer of a running classifier armed. -/
theorem armed_keeps (cfg : Config) (allowed : Call → Prop) :
    Stage.Keeps (component cfg) allowed fun now c _ => c.stopped = false → Armed cfg now c where
  call := by
    intro now c past i _ h hrunning
    exact (h (running_of_call hrunning)).call i
  ring := by
    intro now due c past hdue h _
    obtain ⟨hrunning, rfl⟩ := eq_wake_of_alarm hdue
    exact (h hrunning).ring
  wait := by
    intro now later c past le beyond h hrunning
    have harmed := h hrunning
    exact ⟨beyond _ (alarm_of_running hrunning), harmed.wakes, harmed.silent,
      Nat.le_trans harmed.near (Nat.add_le_add_right le _)⟩

theorem start_armed (cfg : Config) (now : Nat) : Armed cfg now (start cfg now) :=
  ⟨Nat.lt_add_of_pos_right cfg.idleTimeout_pos, Nat.le_refl _,
    ⟨0, by rw [silence, Nat.zero_add, Nat.one_mul]; rfl⟩, Nat.le_refl _⟩

/-! ## What a wait does -/

/-- The same, where the last change is not ahead. -/
theorem isDebounced_eq_false_iff_add {cfg : Config} {now : Nat} {c : Classifier}
    (before : ∀ t ∈ c.lastChange, t ≤ now) :
    c.isDebounced cfg now = false ↔ ∀ t ∈ c.lastChange, t + cfg.debounce ≤ now := by
  rw [isDebounced_eq_false_iff]
  refine forall₂_congr fun t ht => ?_
  have hle := before t ht
  omega

/-- A longer wait is two: a session that does not fall idle in the first falls idle in the second.
-/
theorem fallsSilent_iff_later {cfg : Config} {now middle later : Nat} {c : Classifier}
    (le : now ≤ middle) (hfirst : ¬FallsSilent cfg now middle c) :
    FallsSilent cfg now later c ↔ FallsSilent cfg middle later c := by
  refine and_congr_right fun hactive => exists_congr fun more => ?_
  refine ⟨fun ⟨hlt, hle, hold⟩ => ⟨?_, hle, hold⟩, fun ⟨hlt, hle, hold⟩ =>
    ⟨Nat.lt_of_le_of_lt le hlt, hle, hold⟩⟩
  refine Nat.lt_of_not_le fun hmiddle => ?_
  exact hfirst ⟨hactive, more, hlt, hmiddle, hold⟩

/-- What a wait makes of a running classifier. -/
inductive Waited (cfg : Config) (now later : Nat) (c c' : Classifier) : Prop where
  | awake : ¬FallsSilent cfg now later c → c'.status = c.status → c'.lastChange = c.lastChange →
      Waited cfg now later c c'
  | asleep (t : Nat) : FallsSilent cfg now later c → now < t → t ≤ later → c'.status = .idle →
      c'.lastChange = some t → Waited cfg now later c c'

/-- After a first wait in which the session does not fall idle, the rest decides. -/
theorem Waited.later {cfg : Config} {now middle later : Nat} {c c₁ c' : Classifier}
    (h : Waited cfg middle later c₁ c') (le : now ≤ middle) (hfirst : ¬FallsSilent cfg now middle c)
    (hstatus : c₁.status = c.status) (hlast : c₁.lastChange = c.lastChange)
    (hsame : FallsSilent cfg middle later c₁ ↔ FallsSilent cfg middle later c) :
    Waited cfg now later c c' := by
  have hiff := (fallsSilent_iff_later le hfirst).trans hsame.symm
  cases h with
  | awake hnot hs hl =>
    exact .awake (fun h => hnot (hiff.mp h)) (hs.trans hstatus) (hl.trans hlast)
  | asleep t hfalls hlt hle hs hl =>
    exact .asleep t (hiff.mpr hfalls) (Nat.lt_of_le_of_lt le hlt) hle hs hl

/-- The session does not fall idle before the deadline. -/
theorem Armed.awake_of_early {cfg : Config} {now middle : Nat} {c : Classifier}
    (h : Armed cfg now c) (hearly : middle < c.deadline) : ¬FallsSilent cfg now middle c := by
  rintro ⟨-, more, hlt, hle, -⟩
  have hdeadline := h.deadline_le hlt
  omega

/-- It falls idle at the deadline exactly if it is active then and the last change old enough. -/
theorem Armed.fallsSilent_iff {cfg : Config} {now : Nat} {c : Classifier} (h : Armed cfg now c)
    (hlate : c.wake = c.deadline) (before : ∀ t ∈ c.lastChange, t ≤ now) :
    FallsSilent cfg now c.wake c ↔ c.status = .active ∧ c.isDebounced cfg c.wake = false := by
  have hahead := h.ahead
  have hfree : c.isDebounced cfg c.wake = false ↔
      ∀ t ∈ c.lastChange, t + cfg.debounce ≤ c.wake :=
    isDebounced_eq_false_iff_add fun t ht => Nat.le_trans (before t ht) (Nat.le_of_lt hahead)
  rw [hfree]
  refine and_congr_right fun _ => ?_
  constructor
  · rintro ⟨more, hlt, hle, hold⟩
    have hdeadline := h.deadline_le hlt
    have hjudgement : silence cfg c more = c.wake := by omega
    exact hjudgement ▸ hold
  · intro hold
    obtain ⟨more, hmore⟩ := h.silent
    have hjudgement : silence cfg c more = c.wake := hmore.symm.trans hlate.symm
    rw [← hjudgement] at hahead hold
    exact ⟨more, hahead, Nat.le_of_eq hjudgement, hold⟩

/-- **A wait lets an active session fall idle, and does nothing else.** -/
theorem passes_waited {cfg : Config} {now later : Nat} {c c' : Classifier} {events : List Event}
    (hp : (component cfg).Passes later c events c') (hrunning : c.stopped = false)
    (harmed : Armed cfg now c) (before : ∀ t ∈ c.lastChange, t ≤ now) :
    Waited cfg now later c c' ∧ c'.stopped = false := by
  -- Over the rings of the wait: each moves `now` to itself and leaves the timer armed there.
  induction hp generalizing now with
  | @rest c beyond =>
    have hwake : later < c.wake := beyond _ (alarm_of_running hrunning)
    have hearly := harmed.awake_of_early (Nat.lt_of_lt_of_le hwake harmed.wakes)
    exact ⟨.awake hearly rfl rfl, hrunning⟩
  | @ring c t due events hdue hle hp ih =>
    obtain ⟨-, rfl⟩ := eq_wake_of_alarm hdue
    have hahead := harmed.ahead
    have hlater : ∀ t ∈ c.lastChange, t ≤ c.wake := fun t ht =>
      Nat.le_trans (before t ht) (Nat.le_of_lt hahead)
    have hnext : Armed cfg c.wake ((component cfg).ring c.wake c).1 := harmed.ring
    rcases Nat.lt_or_eq_of_le harmed.wakes with hearly | hlate
    · have hring : ((component cfg).ring c.wake c).1 = { c with wake := c.deadline } :=
        congrArg Prod.fst (ring_early cfg hearly)
      rw [hring] at ih hnext
      obtain ⟨hwaited, hstopped⟩ := ih hrunning hnext hlater
      have hfirst := harmed.awake_of_early hearly
      exact ⟨hwaited.later (Nat.le_of_lt hahead) hfirst rfl rfl Iff.rfl, hstopped⟩
    · have hring : ((component cfg).ring c.wake c).1 = { (judge cfg c.wake c).1 with
          deadline := c.wake + cfg.idleTimeout
          wake := c.wake + cfg.idleTimeout } := ring_late cfg hlate
      have hfalls := harmed.fallsSilent_iff hlate before
      rcases judge_cases (hlate ▸ harmed.idleTimeout_le) with ⟨hactive, hfree, hjudged⟩ |
        ⟨hnot, hjudged⟩
      · rw [hring, hjudged] at ih hnext
        obtain ⟨hwaited, hstopped⟩ := ih hrunning hnext fun t ht => by
          cases ht
          exact Nat.le_refl _
        refine ⟨?_, hstopped⟩
        cases hwaited with
        | awake _ hstatus hlast =>
          obtain ⟨-, more, hlt, hsoon, hold⟩ := hfalls.mpr ⟨hactive, hfree⟩
          have hwait : FallsSilent cfg now later c :=
            ⟨hactive, more, hlt, Nat.le_trans hsoon hle, hold⟩
          exact .asleep c.wake hwait hahead hle hstatus hlast
        | asleep _ hagain => cases hagain.1
      · rw [hring, hjudged] at ih hnext
        obtain ⟨hwaited, hstopped⟩ := ih hrunning hnext hlater
        have hfirst : ¬FallsSilent cfg now c.wake c := fun h => hnot (hfalls.mp h)
        exact ⟨hwaited.later (Nat.le_of_lt hahead) hfirst rfl rfl Iff.rfl, hstopped⟩

/-! ## The exit after a wait -/

theorem setStatus_of_debounced {cfg : Config} {now : Nat} {c : Classifier}
    (h : c.isDebounced cfg now = true) (next : Status) : (setStatus cfg now next c).1 = c := by
  unfold setStatus
  split
  · rfl
  · rfl

theorem setStatus_exited_of_free {cfg : Config} {now : Nat} {c : Classifier}
    (h : c.isDebounced cfg now = false) : (setStatus cfg now .exited c).1.status = .exited := by
  unfold setStatus
  split
  next hguard =>
    rcases Bool.or_eq_true_iff.mp hguard with hsame | hexited
    · exact (of_decide_eq_true hsame).symm
    · exact of_decide_eq_true hexited
  next => simp only [h, Bool.false_eq_true, if_false]

/-- **An exit told after a wait of the debounce interval is accepted exactly if the session does not
fall idle in that wait.** If it does, it stays idle. -/
theorem exit_after_wait {cfg : Config} {now : Nat} {c c' : Classifier}
    (hwaited : Waited cfg now (now + cfg.debounce) c c') (hrunning : c'.stopped = false)
    (before : ∀ t ∈ c.lastChange, t ≤ now) :
    (FallsSilent cfg now (now + cfg.debounce) c ∧
        (exit cfg (now + cfg.debounce) c').1.status = .idle) ∨
      (¬FallsSilent cfg now (now + cfg.debounce) c ∧
        (exit cfg (now + cfg.debounce) c').1.status = .exited) := by
  rw [exit, hrunning, if_neg Bool.false_ne_true]
  cases hwaited with
  | awake hnot hstatus hlast =>
    have hfree : c'.isDebounced cfg (now + cfg.debounce) = false := by
      rw [isDebounced_eq_false_iff]
      intro t ht
      rw [hlast] at ht
      have hle := before t ht
      omega
    exact .inr ⟨hnot, setStatus_exited_of_free hfree⟩
  | asleep t hfalls hlt hle hstatus hlast =>
    have hdebounced : c'.isDebounced cfg (now + cfg.debounce) = true := by
      simp only [isDebounced, hlast, decide_eq_true_eq]
      omega
    rw [setStatus_of_debounced hdebounced]
    exact .inl ⟨hfalls, hstatus⟩

/-! ## The end of a run -/

/-- Only a stop stops a classifier. -/
theorem running_keeps (cfg : Config) :
    Stage.Keeps (component cfg) (· ≠ .stop) fun _ c _ => c.stopped = false where
  call := by
    intro now c past i hne h
    change (call cfg now i c).1.stopped = false
    cases i with
    | output data => exact (output_stopped cfg now data c).trans h
    | exit => exact (exit_stopped cfg now c).trans h
    | stop => exact absurd rfl hne
  ring := by
    intro now due c past _ h
    exact (ring_stopped cfg due c).trans h
  wait := fun _ _ h => h

/-- **The end of a session.** After any steps that do not stop the classifier, a wait of the
debounce interval and the exit leave the session exited, unless it falls idle in that wait. -/
theorem run_exit (cfg : Config) (now capacity : Nat) {steps : List (Stage.Step Call)}
    (never : .call .stop ∉ steps) :
    let closing := ((opening cfg now capacity).run (component cfg) steps).1
    let ending := (closing.run (component cfg) [.sleep cfg.debounce, .call .exit]).1
    (FallsSilent cfg closing.now (closing.now + cfg.debounce) closing.state ∧
        ending.state.status = .idle) ∨
      (¬FallsSilent cfg closing.now (closing.now + cfg.debounce) closing.state ∧
        ending.state.status = .exited) := by
  intro closing ending
  have hrunning : closing.state.stopped = false :=
    (running_keeps cfg).run_nil (fun i hi heq => never (heq ▸ hi)) rfl
  have harmed : closing.state.stopped = false → Armed cfg closing.now closing.state :=
    (armed_keeps cfg fun _ => True).run_nil (fun _ _ => trivial) fun _ => start_armed cfg now
  have before := (run_history cfg now capacity steps).before
  obtain ⟨hwaited, hstill⟩ := passes_waited
    ((component cfg).elapse_passes (closing.now + cfg.debounce) closing.state) hrunning
    (harmed hrunning) before
  exact exit_after_wait hwaited hstill before

end TerminalSession.Classifier
