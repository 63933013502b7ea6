import TerminalSession.Monitor
import TerminalSession.Proofs.Stage.Parts

/-!
# The classifier and the recorder in a monitor

A monitor tells its classifier of output, of the exit and of the stop, and keeps input from it; it
tells its recorder of output, of input and of the stop, and keeps the exit from it. The timer of
each goes off in the monitor when it is due, whatever the other's timer does at that instant or
before. So both are parts of the monitor (`classifier_role`, `recorder_role`), and every run of a
monitor is a run of a classifier, with the same changes of status at the same instants, and a run of
a recorder, with the same batches.

The order of the two timers at one instant is not seen from a part.
-/

set_option autoImplicit false

namespace TerminalSession.Monitor

/-! ## The classifier -/

/-- The event of the classifier that an event of the monitor reports. -/
def Event.activity? : Event → Option Classifier.Event
  | .activity event => some event
  | .transcript _ | .stopped _ => none

/-- What the classifier is told with a call. -/
def Call.classifier? : Call → Option Classifier.Call
  | .output data => some (.output data)
  | .input _ => none
  | .exit => some .exit
  | .stop => some .stop

/-- What of a monitor's move its classifier sees. -/
def seenByClassifier (moved : Monitor × List Event) : Classifier × List Classifier.Event :=
  (moved.1.classifier, moved.2.filterMap Event.activity?)

theorem activity?_map_activity (events : List Classifier.Event) :
    (events.map Event.activity).filterMap Event.activity? = events := by
  rw [List.filterMap_map]
  exact List.filterMap_some

theorem activity?_map_transcript (events : List Recorder.Event) :
    (events.map Event.transcript).filterMap Event.activity? = [] := by
  rw [List.filterMap_map]
  exact List.filterMap_eq_nil_iff.mpr fun _ _ => rfl

theorem onClassifier_seen (move : Classifier → Classifier × List Classifier.Event)
    (kept : ∀ c, (move c).1.stopped = c.stopped) (m : Monitor) :
    seenByClassifier (onClassifier move kept m) = move m.classifier := by
  rw [seenByClassifier, onClassifier, activity?_map_activity]

theorem onRecorder_seen (move : Recorder → Recorder × List Recorder.Event)
    (kept : ∀ r, (move r).1.stopped = r.stopped) (m : Monitor) :
    seenByClassifier (onRecorder move kept m) = (m.classifier, []) := by
  rw [seenByClassifier, onRecorder, activity?_map_transcript]

/-- Two moves, of which a part sees only the first. The part is what a view of the state and a
choice of events show. -/
theorem andThen_seen_left {σ ε : Type} {view : Monitor → σ} {seen? : Event → Option ε}
    {first second : Monitor → Monitor × List Event}
    (h : ∀ m, (view (second m).1, (second m).2.filterMap seen?) = (view m, [])) (m : Monitor) :
    (view (andThen first second m).1, (andThen first second m).2.filterMap seen?) =
      (view (first m).1, (first m).2.filterMap seen?) := by
  obtain ⟨hstate, hevents⟩ := Prod.mk.inj (h (first m).1)
  refine Prod.ext hstate ?_
  simp only [andThen, List.filterMap_append, hevents, List.append_nil]

/-- The other way round. -/
theorem andThen_seen_right {σ ε : Type} {view : Monitor → σ} {seen? : Event → Option ε}
    {first second : Monitor → Monitor × List Event} {move : σ → σ × List ε}
    (hfirst : ∀ m, (view (first m).1, (first m).2.filterMap seen?) = (view m, []))
    (hsecond : ∀ m, (view (second m).1, (second m).2.filterMap seen?) = move (view m))
    (m : Monitor) :
    (view (andThen first second m).1, (andThen first second m).2.filterMap seen?) =
      move (view m) := by
  obtain ⟨hstate, hevents⟩ := Prod.mk.inj (hfirst m)
  rw [← hstate, ← hsecond (first m).1]
  simp only [andThen, List.filterMap_append, hevents, List.nil_append]

theorem ring_seen (cfg : Config) (now : Nat) (m : Monitor) :
    seenByClassifier (ring cfg now m) =
      if m.classifier.alarm = some now then Classifier.ring cfg.classifier now m.classifier
      else (m.classifier, []) := by
  have hclassifier := onClassifier_seen (Classifier.ring cfg.classifier now)
    (Classifier.ring_stopped _ now)
  have hrecorder := onRecorder_seen (Recorder.ring cfg.recorder now) (Recorder.ring_stopped _ now)
  unfold ring
  split
  next =>
    split
    next =>
      split
      · exact (andThen_seen_left hrecorder m).trans (hclassifier m)
      · exact andThen_seen_right hrecorder hclassifier m
    next => exact hclassifier { m with classifierFirst := false }
  next =>
    split
    · exact hrecorder { m with classifierFirst := true }
    · rfl

theorem stop_seen (cfg : Config) (now : Nat) (m : Monitor) :
    seenByClassifier (stop cfg now m) = Classifier.stop m.classifier := by
  unfold stop
  split
  next h =>
    rw [Classifier.stop, if_pos (m.classifier_stopped.trans h)]
    rfl
  next =>
    refine Prod.ext rfl ?_
    simp only [seenByClassifier, List.filterMap_append, activity?_map_activity,
      activity?_map_transcript, List.filterMap_cons, List.filterMap_nil, Event.activity?,
      List.append_nil]

theorem call_seen (cfg : Config) {i : Call} {j : Classifier.Call} (h : i.classifier? = some j)
    (now : Nat) (m : Monitor) :
    seenByClassifier (call cfg now i m) = Classifier.call cfg.classifier now j m.classifier := by
  cases i with
  | output data =>
    cases h
    exact (andThen_seen_left (onRecorder_seen (Recorder.output cfg.recorder now data) _) m).trans
      (onClassifier_seen _ _ m)
  | input data => cases h
  | exit =>
    cases h
    exact onClassifier_seen _ (Classifier.exit_stopped _ now) m
  | stop =>
    cases h
    exact stop_seen cfg now m

/-- **The classifier is a part of the monitor.** -/
theorem classifier_role (cfg : Config) :
    Stage.Role (component cfg) (Classifier.component cfg.classifier) classifier Event.activity?
      Call.classifier? where
  first := by
    intro m due h
    change m.classifier.alarm = some due at h
    cases hr : m.recorder.alarm with
    | none => exact ⟨due, Nat.le_refl due, by simp only [component, alarm, h, hr, earlier]⟩
    | some other =>
      exact ⟨min due other, Nat.min_le_left due other,
        by simp only [component, alarm, h, hr, earlier]⟩
  ring := by
    intro m now _
    exact ring_seen cfg now m
  passed := fun h now m => call_seen cfg h now m
  kept := by
    intro i h now m
    cases i with
    | output data => cases h
    | input data => exact onRecorder_seen _ (Recorder.input_stopped _ now data) m
    | exit => cases h
    | stop => cases h

/-! ## The recorder -/

/-- The event of the recorder that an event of the monitor reports. -/
def Event.transcript? : Event → Option Recorder.Event
  | .transcript event => some event
  | .activity _ | .stopped _ => none

/-- What the recorder is told with a call. -/
def Call.recorder? : Call → Option Recorder.Call
  | .output data => some (.output data)
  | .input data => some (.input data)
  | .exit => none
  | .stop => some .stop

/-- What of a monitor's move its recorder sees. -/
def seenByRecorder (moved : Monitor × List Event) : Recorder × List Recorder.Event :=
  (moved.1.recorder, moved.2.filterMap Event.transcript?)

theorem transcript?_map_transcript (events : List Recorder.Event) :
    (events.map Event.transcript).filterMap Event.transcript? = events := by
  rw [List.filterMap_map]
  exact List.filterMap_some

theorem transcript?_map_activity (events : List Classifier.Event) :
    (events.map Event.activity).filterMap Event.transcript? = [] := by
  rw [List.filterMap_map]
  exact List.filterMap_eq_nil_iff.mpr fun _ _ => rfl

theorem onRecorder_recorded (move : Recorder → Recorder × List Recorder.Event)
    (kept : ∀ r, (move r).1.stopped = r.stopped) (m : Monitor) :
    seenByRecorder (onRecorder move kept m) = move m.recorder := by
  rw [seenByRecorder, onRecorder, transcript?_map_transcript]

theorem onClassifier_recorded (move : Classifier → Classifier × List Classifier.Event)
    (kept : ∀ c, (move c).1.stopped = c.stopped) (m : Monitor) :
    seenByRecorder (onClassifier move kept m) = (m.recorder, []) := by
  rw [seenByRecorder, onClassifier, transcript?_map_activity]

theorem ring_recorded (cfg : Config) (now : Nat) (m : Monitor) :
    seenByRecorder (ring cfg now m) =
      if m.recorder.alarm = some now then Recorder.ring cfg.recorder now m.recorder
      else (m.recorder, []) := by
  have hclassifier := onClassifier_recorded (Classifier.ring cfg.classifier now)
    (Classifier.ring_stopped _ now)
  have hrecorder := onRecorder_recorded (Recorder.ring cfg.recorder now)
    (Recorder.ring_stopped _ now)
  unfold ring
  split
  next =>
    split
    next =>
      split
      · exact andThen_seen_right hclassifier hrecorder m
      · exact (andThen_seen_left hclassifier m).trans (hrecorder m)
    next => exact hclassifier { m with classifierFirst := false }
  next =>
    split
    · exact hrecorder { m with classifierFirst := true }
    · rfl

theorem stop_recorded (cfg : Config) (now : Nat) (m : Monitor) :
    seenByRecorder (stop cfg now m) = Recorder.stop cfg.recorder now m.recorder := by
  unfold stop
  split
  next h =>
    rw [Recorder.stop, if_pos (m.recorder_stopped.trans h)]
    rfl
  next =>
    refine Prod.ext rfl ?_
    simp only [seenByRecorder, List.filterMap_append, transcript?_map_activity,
      transcript?_map_transcript, List.filterMap_cons, List.filterMap_nil, Event.transcript?,
      List.nil_append, List.append_nil]

theorem call_recorded (cfg : Config) {i : Call} {j : Recorder.Call} (h : i.recorder? = some j)
    (now : Nat) (m : Monitor) :
    seenByRecorder (call cfg now i m) = Recorder.call cfg.recorder now j m.recorder := by
  cases i with
  | output data =>
    cases h
    exact andThen_seen_right (onClassifier_recorded (Classifier.output cfg.classifier now data) _)
      (onRecorder_recorded _ _) m
  | input data =>
    cases h
    exact onRecorder_recorded _ (Recorder.input_stopped _ now data) m
  | exit => cases h
  | stop =>
    cases h
    exact stop_recorded cfg now m

/-- **The recorder is a part of the monitor.** -/
theorem recorder_role (cfg : Config) :
    Stage.Role (component cfg) (Recorder.component cfg.recorder) recorder Event.transcript?
      Call.recorder? where
  first := by
    intro m due h
    change m.recorder.alarm = some due at h
    cases hc : m.classifier.alarm with
    | none => exact ⟨due, Nat.le_refl due, by simp only [component, alarm, h, hc, earlier]⟩
    | some other =>
      exact ⟨min other due, Nat.min_le_right other due,
        by simp only [component, alarm, h, hc, earlier]⟩
  ring := by
    intro m now _
    exact ring_recorded cfg now m
  passed := fun h now m => call_recorded cfg h now m
  kept := by
    intro i h now m
    cases i with
    | output data => cases h
    | input data => cases h
    | exit => exact onClassifier_recorded _ (Classifier.exit_stopped _ now) m
    | stop => cases h

end TerminalSession.Monitor
