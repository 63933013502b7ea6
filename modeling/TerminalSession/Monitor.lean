import TerminalSession.Classifier
import TerminalSession.Recorder

/-!
# The monitor

Watches one session with a classifier and a recorder: output goes to the classifier and then to the
recorder, input to the recorder alone. Neither knows of the other; what ties them together is the
order in which their timers go off at one instant, and so the order in which their jobs queue. There
the timer that has been set longer goes first, and of two set at one instant the one that was set
first. The classifier's is set first of all.
-/

namespace TerminalSession

set_option autoImplicit false

/-- A monitor's state. It has stopped just when its parts have. -/
@[ext] structure Monitor where
  classifier : Classifier
  recorder : Recorder
  /-- Whether the classifier's timer was set before the recorder's. -/
  classifierFirst : Bool
  /-- Whether it was told to stop. -/
  stopped : Bool
  classifier_stopped : classifier.stopped = stopped
  recorder_stopped : recorder.stopped = stopped
  deriving DecidableEq, Repr

namespace Monitor

/-- What a monitor can be told. -/
inductive Call where
  | output (data : Bytes)
  | input (data : Bytes)
  | exit
  | stop

/-- What happens in a monitor. -/
inductive Event where
  | activity (event : Classifier.Event)
  | transcript (event : Recorder.Event)
  /-- The monitor stopped; the session was last seen with this status. -/
  | stopped (status : Status)
  deriving DecidableEq, Repr

/-- The job that an event submits. -/
def Event.job? : Event → Option Job
  | .activity event => event.job?
  | .transcript event => event.job?
  | .stopped _ => none

/-- A monitor begun at an instant. -/
def start (cfg : Config) (now : Nat) : Monitor :=
  { classifier := Classifier.start cfg.classifier now
    recorder := Recorder.start cfg.recorder now
    classifierFirst := true
    stopped := false
    classifier_stopped := rfl
    recorder_stopped := rfl }

/-- Moves the classifier, which is not stopped by the move. -/
def onClassifier (move : Classifier → Classifier × List Classifier.Event)
    (kept : ∀ c, (move c).1.stopped = c.stopped) (m : Monitor) : Monitor × List Event :=
  let moved := move m.classifier
  ({ m with
      classifier := moved.1
      classifier_stopped := (kept m.classifier).trans m.classifier_stopped },
    moved.2.map .activity)

/-- Moves the recorder, which is not stopped by the move. -/
def onRecorder (move : Recorder → Recorder × List Recorder.Event)
    (kept : ∀ r, (move r).1.stopped = r.stopped) (m : Monitor) : Monitor × List Event :=
  let moved := move m.recorder
  ({ m with
      recorder := moved.1
      recorder_stopped := (kept m.recorder).trans m.recorder_stopped },
    moved.2.map .transcript)

/-- One move after another. -/
def andThen (first second : Monitor → Monitor × List Event) (m : Monitor) : Monitor × List Event :=
  let one := first m
  let two := second one.1
  (two.1, one.2 ++ two.2)

/-- Takes a chunk of output. -/
def output (cfg : Config) (now : Nat) (data : Bytes) : Monitor → Monitor × List Event :=
  andThen
    (onClassifier (Classifier.output cfg.classifier now data) (Classifier.output_stopped _ now data))
    (onRecorder (Recorder.output cfg.recorder now data) (Recorder.output_stopped _ now data))

/-- Takes a chunk of input. -/
def input (cfg : Config) (now : Nat) (data : Bytes) : Monitor → Monitor × List Event :=
  onRecorder (Recorder.input cfg.recorder now data) (Recorder.input_stopped _ now data)

/-- Notes that the session's process has exited. -/
def exit (cfg : Config) (now : Nat) : Monitor → Monitor × List Event :=
  onClassifier (Classifier.exit cfg.classifier now) (Classifier.exit_stopped _ now)

/-- Stops the monitor for good. Only the first time does anything: the classifier stops, and then
the recorder. -/
def stop (cfg : Config) (now : Nat) (m : Monitor) : Monitor × List Event :=
  if m.stopped then (m, [])
  else
    let judged := Classifier.stop m.classifier
    let recorded := Recorder.stop cfg.recorder now m.recorder
    ({ m with
        classifier := judged.1
        recorder := recorded.1
        stopped := true
        classifier_stopped := Classifier.stop_stopped m.classifier
        recorder_stopped := Recorder.stop_stopped cfg.recorder now m.recorder },
      judged.2.map .activity ++ recorded.2.map .transcript ++ [.stopped judged.1.status])

/-- What a call does. -/
def call (cfg : Config) (now : Nat) : Call → Monitor → Monitor × List Event
  | .output data => output cfg now data
  | .input data => input cfg now data
  | .exit => exit cfg now
  | .stop => stop cfg now

/-- The earlier of two instants, where there are any. -/
def earlier : Option Nat → Option Nat → Option Nat
  | some a, some b => some (min a b)
  | some a, none => some a
  | none, b => b

/-- When the next of the two timers goes off. -/
def alarm (m : Monitor) : Option Nat := earlier m.classifier.alarm m.recorder.alarm

/-- The classifier's timer goes off. -/
def ringClassifier (cfg : Config) (now : Nat) : Monitor → Monitor × List Event :=
  onClassifier (Classifier.ring cfg.classifier now) (Classifier.ring_stopped _ now)

/-- The recorder's timer goes off. -/
def ringRecorder (cfg : Config) (now : Nat) : Monitor → Monitor × List Event :=
  onRecorder (Recorder.ring cfg.recorder now) (Recorder.ring_stopped _ now)

/-- The timers due at an instant go off. Of two, the one set earlier goes first and so is set again
first; one that goes off alone is set again after the other. -/
def ring (cfg : Config) (now : Nat) (m : Monitor) : Monitor × List Event :=
  if m.classifier.alarm = some now then
    if m.recorder.alarm = some now then
      if m.classifierFirst then andThen (ringClassifier cfg now) (ringRecorder cfg now) m
      else andThen (ringRecorder cfg now) (ringClassifier cfg now) m
    else ringClassifier cfg now { m with classifierFirst := false }
  else if m.recorder.alarm = some now then ringRecorder cfg now { m with classifierFirst := true }
  else (m, [])

theorem earlier_eq_some {a b : Option Nat} {n : Nat} (h : earlier a b = some n) :
    (a = some n ∧ ∀ k ∈ b, n ≤ k) ∨ (b = some n ∧ ∀ k ∈ a, n ≤ k) := by
  cases a with
  | none =>
    refine .inr ⟨h, ?_⟩
    intro k hk
    cases hk
  | some a =>
    cases b with
    | none =>
      refine .inl ⟨h, ?_⟩
      intro k hk
      cases hk
    | some b =>
      obtain rfl : min a b = n := Option.some.inj h
      rcases Nat.le_total a b with hle | hle
      · rw [Nat.min_eq_left hle]
        refine .inl ⟨rfl, ?_⟩
        intro k hk
        cases hk
        exact hle
      · rw [Nat.min_eq_right hle]
        refine .inr ⟨rfl, ?_⟩
        intro k hk
        cases hk
        exact hle

theorem lt_earlier {a b : Option Nat} {now next : Nat} (ha : ∀ k ∈ a, now < k)
    (hb : ∀ k ∈ b, now < k) (h : earlier a b = some next) : now < next := by
  rcases earlier_eq_some h with ⟨h, _⟩ | ⟨h, _⟩
  · exact ha _ h
  · exact hb _ h

theorem alarm_ring (cfg : Config) {now next : Nat} {m : Monitor} (due : alarm m = some now)
    (h : alarm (ring cfg now m).1 = some next) : now < next := by
  have classifier (k : Nat) (hc : m.classifier.alarm = some now)
      (hk : k ∈ (Classifier.ring cfg.classifier now m.classifier).1.alarm) : now < k :=
    Classifier.alarm_ring cfg.classifier hc hk
  have recorder (k : Nat) (hr : m.recorder.alarm = some now)
      (hk : k ∈ (Recorder.ring cfg.recorder now m.recorder).1.alarm) : now < k :=
    Recorder.alarm_ring cfg.recorder hr hk
  have later {a : Option Nat} (le : ∀ k ∈ a, now ≤ k) (ne : a ≠ some now) : ∀ k ∈ a, now < k := by
    intro k hk
    have := le k hk
    rcases Nat.lt_or_eq_of_le this with lt | eq
    · exact lt
    · exact absurd (eq ▸ hk) ne
  unfold ring at h
  split at h
  · rename_i hc
    split at h
    · rename_i hr
      split at h
      all_goals
        exact lt_earlier (fun k hk => classifier k hc hk) (fun k hk => recorder k hr hk) h
    · rename_i hr
      have le : ∀ k ∈ m.recorder.alarm, now ≤ k := by
        rcases earlier_eq_some due with ⟨_, le⟩ | ⟨eq, _⟩
        · exact le
        · exact absurd eq hr
      exact lt_earlier (fun k hk => classifier k hc hk) (later le hr) h
  · rename_i hc
    have le : ∀ k ∈ m.classifier.alarm, now ≤ k := by
      rcases earlier_eq_some due with ⟨eq, _⟩ | ⟨_, le⟩
      · exact absurd eq hc
      · exact le
    split at h
    · rename_i hr
      exact lt_earlier (later le hc) (fun k hk => recorder k hr hk) h
    · rename_i hr
      rcases earlier_eq_some due with ⟨eq, _⟩ | ⟨eq, _⟩
      · exact absurd eq hc
      · exact absurd eq hr

/-- The monitor as a component. -/
def component (cfg : Config) : Component Monitor Call Event Job where
  call := call cfg
  alarm := alarm
  ring := ring cfg
  job? := Event.job?
  alarm_ring := alarm_ring cfg

end Monitor

end TerminalSession
