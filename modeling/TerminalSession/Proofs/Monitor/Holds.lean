import TerminalSession.Proofs.Monitor.Product
import TerminalSession.Proofs.Stage.Holds

/-!
# A slow worker does not disturb a session

A classifier hands a change of status to its worker in the midst of changing it, and a recorder
empties its buffer before it is known whether the batch has found room. Neither looks at the answer.
`holds_unnoticed` says so of both, and of the monitor: holds of the worker may be put in or left out
anywhere, and its capacity may be any other, and the session is judged and recorded as it was.
-/

set_option autoImplicit false

namespace TerminalSession.Monitor

/-- **A slow worker is not noticed.** Take two runs, with workers of any capacities, that differ
only in where the worker is held up and let go. After each other step the status is the same in
both, and so is what is buffered, as the states are the same. And once the worker has been let go
for good, it has done the jobs of the run without holds, in order, but for as many as were dropped.
So it is for a classifier, for a recorder and for a monitor. -/
theorem holds_unnoticed :
    (∀ (cfg : Classifier.Config) (began capacity capacity' : Nat)
        (steps steps' : List (Stage.Step Classifier.Call)), Stage.own steps = Stage.own steps' →
      Stage.Undisturbed (Classifier.component cfg) (Classifier.opening cfg began capacity)
        (Classifier.opening cfg began capacity') steps steps') ∧
    (∀ (cfg : Recorder.Config) (began capacity capacity' : Nat)
        (steps steps' : List (Stage.Step Recorder.Call)), Stage.own steps = Stage.own steps' →
      Stage.Undisturbed (Recorder.component cfg) (Recorder.opening cfg began capacity)
        (Recorder.opening cfg began capacity') steps steps') ∧
    ∀ (cfg : Config) (began capacity capacity' : Nat) (steps steps' : List (Stage.Step Call)),
      Stage.own steps = Stage.own steps' →
      Stage.Undisturbed (component cfg) (opening cfg began capacity) (opening cfg began capacity')
        steps steps' := by
  refine ⟨?_, ?_, ?_⟩
  · intro cfg began capacity capacity' steps steps' h
    exact Stage.undisturbed _ began capacity capacity' (Classifier.start cfg began) h
  · intro cfg began capacity capacity' steps steps' h
    exact Stage.undisturbed _ began capacity capacity' (Recorder.start cfg began) h
  · intro cfg began capacity capacity' steps steps' h
    exact Stage.undisturbed _ began capacity capacity' (start cfg began) h

/-- The worker is held up while a prompt is shown and the session ends. -/
def crowded : List (Stage.Step Call) :=
  [.hold, .call (.output [0x24]), .sleep 1000, .call .exit, .release, .call .stop]

/-- The same session, with the worker held up only for a moment. -/
def eased : List (Stage.Step Call) :=
  [.call (.output [0x24]), .hold, .release, .sleep 1000, .call .exit, .call .stop]

/-- With room for one job, the batch and the exit are dropped, and nothing else differs. -/
theorem holds_unnoticed_crowded :
    Stage.own crowded = Stage.own eased ∧
      Stage.Undisturbed (component abreast) (opening abreast 0 1) (opening abreast 0 9) crowded
        eased ∧
      ((opening abreast 0 1).run (component abreast) crowded).1.worker.dropped = 2 ∧
      ((opening abreast 0 1).run (component abreast) crowded).1.worker.doneAtLast =
        [.notify ⟨.active, .needsInput⟩] := by
  have h : Stage.own crowded = Stage.own eased := rfl
  exact ⟨h, holds_unnoticed.2.2 abreast 0 1 9 crowded eased h, by decide +kernel,
    by decide +kernel⟩

end TerminalSession.Monitor
