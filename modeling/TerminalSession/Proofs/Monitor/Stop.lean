import TerminalSession.Proofs.Classifier.Chain
import TerminalSession.Proofs.Monitor.Product
import TerminalSession.Proofs.Recorder.Stop

/-!
# Stopping is final

Stopping the classifier, the recorder or the monitor leaves a state in which no call does anything
and no timer runs. So whatever they are told afterwards and however long they are waited for, no
status and no buffer changes, and the worker is given no further job.

A monitor has a flag of its own, which the first stop sets and which keeps any other from doing
anything. Its parts have stopped exactly if it has (`run_parts_stopped`).

The recorder is the one of them that owes something. It hands it over when it is stopped, and only
then (`stop_handsOver_freezes`).

## What this does NOT decide

A worker who is held up still does the jobs that wait for him, after the end as before it.
-/

set_option autoImplicit false

namespace TerminalSession.Monitor

open Stage (AtRest Frozen)

/-! ## The flag of a monitor -/

theorem stop_stopped (cfg : Config) (now : Nat) (m : Monitor) :
    (stop cfg now m).1.stopped = true := by
  unfold stop
  split
  next h => exact h
  next => rfl

theorem ring_stopped (cfg : Config) (now : Nat) (m : Monitor) :
    (ring cfg now m).1.stopped = m.stopped := by
  unfold ring
  split
  next =>
    split
    next =>
      split
      · rfl
      · rfl
    next => rfl
  next =>
    split
    · rfl
    · rfl

/-- A step sets the flag if it is a stop, and otherwise leaves it. -/
theorem step_stopped (cfg : Config) (s : Stage Monitor Job) (step : Stage.Step Call) :
    (s.step (component cfg) step).1.state.stopped = true ↔
      s.state.stopped = true ∨ .call .stop = step := by
  cases step with
  | call i =>
    cases i with
    | output data => exact (or_iff_left nofun).symm
    | input data => exact (or_iff_left nofun).symm
    | exit => exact (or_iff_left nofun).symm
    | stop => exact iff_of_true (stop_stopped cfg s.now s.state) (.inr rfl)
  | sleep ms =>
    have hview : ((component cfg).elapse (s.now + ms) s.state).1.stopped = s.state.stopped :=
      Component.elapse_view (ring_stopped cfg) _ _
    rw [← hview]
    exact (or_iff_left nofun).symm
  | hold => exact (or_iff_left nofun).symm
  | release => exact (or_iff_left nofun).symm

/-- The flag is set by the first stop, and stays set. -/
theorem run_stopped (cfg : Config) (s : Stage Monitor Job) (steps : List (Stage.Step Call)) :
    (s.run (component cfg) steps).1.state.stopped = true ↔
      s.state.stopped = true ∨ .call .stop ∈ steps := by
  induction steps generalizing s with
  | nil => exact (or_iff_left List.not_mem_nil).symm
  | cons step steps ih =>
    have hrest := ih (s.step (component cfg) step).1
    rw [step_stopped, or_assoc] at hrest
    rw [List.mem_cons]
    exact hrest

/-- **The flag of a monitor tells of its parts.** Whatever a monitor is told, it has stopped exactly
if it was told to stop, and so has its classifier, and so has its recorder. -/
theorem run_parts_stopped (cfg : Config) (began capacity : Nat) (steps : List (Stage.Step Call)) :
    let m := ((opening cfg began capacity).run (component cfg) steps).1.state
    (m.stopped = true ↔ .call .stop ∈ steps) ∧
      (m.classifier.stopped = true ↔ .call .stop ∈ steps) ∧
      (m.recorder.stopped = true ↔ .call .stop ∈ steps) := by
  intro m
  have hflag : m.stopped = true ↔ .call .stop ∈ steps :=
    (run_stopped cfg (opening cfg began capacity) steps).trans (or_iff_right Bool.false_ne_true)
  refine ⟨hflag, ?_, ?_⟩
  · rw [m.classifier_stopped]
    exact hflag
  · rw [m.recorder_stopped]
    exact hflag

/-! ## A stopped monitor -/

theorem onClassifier_of_none {m : Monitor} {move : Classifier → Classifier × List Classifier.Event}
    (kept : ∀ c, (move c).1.stopped = c.stopped) (h : move m.classifier = (m.classifier, [])) :
    onClassifier move kept m = (m, []) := by
  refine Prod.ext (Monitor.ext (congrArg Prod.fst h) rfl rfl rfl) ?_
  exact congrArg (fun moved => moved.2.map Event.activity) h

theorem onRecorder_of_none {m : Monitor} {move : Recorder → Recorder × List Recorder.Event}
    (kept : ∀ r, (move r).1.stopped = r.stopped) (h : move m.recorder = (m.recorder, [])) :
    onRecorder move kept m = (m, []) := by
  refine Prod.ext (Monitor.ext rfl (congrArg Prod.fst h) rfl rfl) ?_
  exact congrArg (fun moved => moved.2.map Event.transcript) h

/-- Output that is nothing to either part is nothing to the monitor. -/
theorem output_of_none {cfg : Config} {now : Nat} {data : Bytes} {m : Monitor}
    (hc : Classifier.output cfg.classifier now data m.classifier = (m.classifier, []))
    (hr : Recorder.output cfg.recorder now data m.recorder = (m.recorder, [])) :
    output cfg now data m = (m, []) := by
  rw [output, andThen, onClassifier_of_none _ hc, onRecorder_of_none _ hr]
  rfl

/-- Nothing happens in a monitor that has stopped. -/
theorem frozen_of_stopped (cfg : Config) {m : Monitor} (h : m.stopped = true) :
    Frozen (component cfg) m where
  call := by
    intro now i
    have hc : m.classifier.stopped = true := m.classifier_stopped.trans h
    have hr : m.recorder.stopped = true := m.recorder_stopped.trans h
    cases i with
    | output data =>
      exact output_of_none (Classifier.call_of_stopped cfg.classifier now (.output data) hc)
        (Recorder.call_of_stopped cfg.recorder now (.output data) hr)
    | input data =>
      exact onRecorder_of_none (Recorder.input_stopped _ now data)
        (Recorder.call_of_stopped cfg.recorder now (.input data) hr)
    | exit =>
      exact onClassifier_of_none (Classifier.exit_stopped _ now)
        (Classifier.call_of_stopped cfg.classifier now .exit hc)
    | stop => exact if_pos h
  alarm := by
    have hclassifier : m.classifier.alarm = none := if_pos (m.classifier_stopped.trans h)
    have hrecorder : m.recorder.alarm = none := if_pos (m.recorder_stopped.trans h)
    change alarm m = none
    rw [alarm, hclassifier, hrecorder]
    rfl

/-- **Stopping hands over everything once, and is final.**

- A recorder that has been begun and told whatever hands over at most one batch when it is stopped;
  it hands over one exactly if it was running and has something buffered, repeats to be counted, or
  a tail that starts with a cut character. The batch is what is buffered, then the count, then the
  text of that tail. Nothing is left in the recorder.
- From whatever stage a classifier, a recorder or a monitor is stopped, nothing happens in it from
  then on: no step changes its state or submits a job. -/
theorem stop_handsOver_freezes :
    (∀ (cfg : Recorder.Config) (began capacity : Nat) (steps : List (Stage.Step Recorder.Call)),
      let s := ((Recorder.opening cfg began capacity).run (Recorder.component cfg) steps).1
      s.state.HandsOver s.now (Recorder.stop cfg s.now s.state)) ∧
    (∀ (cfg : Classifier.Config) (s : Stage Classifier Job),
      AtRest (Classifier.component cfg) .stop (s.step (Classifier.component cfg) (.call .stop)).1) ∧
    (∀ (cfg : Recorder.Config) (s : Stage Recorder Job),
      AtRest (Recorder.component cfg) .stop (s.step (Recorder.component cfg) (.call .stop)).1) ∧
    ∀ (cfg : Config) (s : Stage Monitor Job),
      AtRest (component cfg) .stop (s.step (component cfg) (.call .stop)).1 := by
  refine ⟨?_, ?_, ?_, ?_⟩
  · intro cfg began capacity steps s
    exact (Recorder.run_wellKept cfg began capacity steps).stop_handsOver s.now
  · intro cfg s
    apply Frozen.atRest
    exact Classifier.frozen_of_stopped cfg (Classifier.stop_stopped s.state)
  · intro cfg s
    apply Frozen.atRest
    exact Recorder.frozen_of_stopped cfg (Recorder.stop_stopped cfg s.now s.state)
  · intro cfg s
    apply Frozen.atRest
    exact frozen_of_stopped cfg (stop_stopped cfg s.now s.state)

end TerminalSession.Monitor
