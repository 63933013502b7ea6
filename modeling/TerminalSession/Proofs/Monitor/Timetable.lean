import TerminalSession.Proofs.Monitor.Product
import TerminalSession.Proofs.Recorder.Ticks
import TerminalSession.Proofs.Stage.Timetable

/-!
# A session goes by the clock

No call of a classifier, a recorder or a monitor sets a timer: it leaves the timers alone or, at the
end, turns them off (`Classifier.call_alarm`, `Recorder.call_alarm`). Output does put a classifier's
deadline off, but the timer finds that out only when it wakes. So each of the three goes by the clock
(`only_time_matters`), whatever its timers do while time passes: however often they go off, early or
not, and wherever the time is cut.
-/

set_option autoImplicit false

namespace TerminalSession

namespace Classifier

theorem setsAhead (cfg : Config) : Stage.SetsAhead (component cfg) :=
  fun now i c ahead due hdue => ahead due (call_alarm cfg now i c due hdue)

end Classifier

namespace Recorder

/-- A call may stop the timer; otherwise it leaves it as it is. -/
theorem call_alarm (cfg : Config) (now : Nat) (i : Call) (r : Recorder) :
    ∀ due ∈ alarm (call cfg now i r).1, due ∈ alarm r := by
  intro due hdue
  obtain ⟨hrunning, rfl⟩ := eq_nextFlush_of_alarm hdue
  rw [call_nextFlush, alarm, running_of_call hrunning]
  rfl

theorem setsAhead (cfg : Config) : Stage.SetsAhead (component cfg) :=
  fun now i r ahead due hdue => ahead due (call_alarm cfg now i r due hdue)

end Recorder

namespace Monitor

/-- Each timer of the monitor is one of its parts'. -/
theorem setsAhead (cfg : Config) : Stage.SetsAhead (component cfg) := by
  intro now i m ahead due hdue
  rcases earlier_eq_some hdue with ⟨hdue, -⟩ | ⟨hdue, -⟩
  · exact (classifier_role cfg).ahead (Classifier.setsAhead cfg.classifier) ahead i due hdue
  · exact (recorder_role cfg).ahead (Recorder.setsAhead cfg.recorder) ahead i due hdue

/-- **Only what is done when matters.** Take a classifier, a recorder or a monitor wherever any steps
have led it, its worker held up or not, itself stopped or not: to wait once and then again leads to
the stage to which one wait as long leads, with the same state and the same jobs done, and the same
happens at the same instants. More generally, two runs from the beginning in which the same is done
at the same instants, and which end at one instant, are the same, however they wait. -/
theorem only_time_matters :
    (∀ (cfg : Classifier.Config) (began capacity : Nat),
      Stage.ByClock (Classifier.component cfg) (Classifier.opening cfg began capacity)) ∧
    (∀ (cfg : Recorder.Config) (began capacity : Nat),
      Stage.ByClock (Recorder.component cfg) (Recorder.opening cfg began capacity)) ∧
    ∀ (cfg : Config) (began capacity : Nat),
      Stage.ByClock (component cfg) (opening cfg began capacity) := by
  have hclassifier (cfg : Classifier.Config) (began : Nat) :
      ∀ due ∈ (Classifier.start cfg began).alarm, began < due :=
    (Classifier.start_history cfg began).2
  have hrecorder (cfg : Recorder.Config) (began : Nat) :
      ∀ due ∈ (Recorder.start cfg began).alarm, began < due := by
    intro due hdue
    cases hdue
    exact Nat.lt_add_of_pos_right cfg.flushInterval_pos
  refine ⟨?_, ?_, ?_⟩
  · intro cfg began capacity
    exact Stage.byClock (Classifier.setsAhead cfg) (hclassifier cfg began)
  · intro cfg began capacity
    exact Stage.byClock (Recorder.setsAhead cfg) (hrecorder cfg began)
  · intro cfg began capacity
    apply Stage.byClock (setsAhead cfg)
    intro due hdue
    exact lt_earlier (hclassifier cfg.classifier began) (hrecorder cfg.recorder began) hdue

/-- A wait that is cut just when both timers go off, while the worker is held up. -/
def cut : List (Stage.Step Call) :=
  [.call (.output [0x61, 0x62]), .hold, .sleep 1000, .sleep 1500, .call .exit, .release]

/-- The same session, where the wait is cut elsewhere. -/
def whole : List (Stage.Step Call) :=
  [.sleep 0, .call (.output [0x61, 0x62]), .hold, .sleep 2499, .sleep 1, .call .exit, .sleep 0,
    .release]

theorem only_time_matters_cut :
    (Stage.timetable 0 cut = Stage.timetable 0 whole ∧
      Stage.duration cut = Stage.duration whole) ∧
      (opening abreast 0 3).run (component abreast) cut =
        (opening abreast 0 3).run (component abreast) whole ∧
      ((opening abreast 0 3).run (component abreast) cut).1.worker.done =
        [.notify ⟨.active, .idle⟩, .persist [⟨0, .shown ['a', 'b']⟩],
          .notify ⟨.idle, .exited⟩] := by
  have h : Stage.timetable 0 cut = Stage.timetable 0 whole ∧
      Stage.duration cut = Stage.duration whole := ⟨rfl, rfl⟩
  exact ⟨h, (only_time_matters.2.2 abreast 0 3).deeds cut whole h.1 h.2, by decide +kernel⟩

end Monitor

end TerminalSession
