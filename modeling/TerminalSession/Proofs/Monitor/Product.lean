import TerminalSession.Proofs.Classifier.Chain
import TerminalSession.Proofs.Monitor.Parts
import TerminalSession.Proofs.Recorder.Transcript

/-!
# A monitor is its parts side by side

A classifier and a recorder, each at work by itself and told its share of the steps, come to the
states that they have in a monitor which is told all of them (`Product.classifier`,
`Product.recorder`). The monitor has one worker for both, and its two timers may go off at one
instant; neither shows in a part.

What the worker has done splits into what the workers of the two parts have done, the notices of the
one and the batches of the other, as long as none of the three drops a job (`Product.notices`,
`Product.batches`). The order between a notice and a batch is the monitor's own.
-/

set_option autoImplicit false

namespace TerminalSession

/-- Whether a job tells of a change of status. -/
def Job.isNotice : Job → Bool
  | .notify _ => true
  | .persist _ => false

/-- Whether a job adds to the transcript. -/
def Job.isBatch : Job → Bool
  | .notify _ => false
  | .persist _ => true

namespace Monitor

/-- A monitor begun at an instant, with a worker for whom so many jobs may wait. -/
def opening (cfg : Config) (now capacity : Nat) : Stage Monitor Job :=
  { now, state := start cfg now, worker := { capacity } }

/-- The notices among a monitor's jobs are the jobs of its classifier. -/
theorem job?_notice (e : Event) :
    e.job?.filter Job.isNotice = e.activity?.bind Classifier.Event.job? := by
  cases e with
  | activity event => cases event <;> rfl
  | transcript event => cases event <;> rfl
  | stopped status => rfl

/-- The batches are those of its recorder. -/
theorem job?_batch (e : Event) :
    e.job?.filter Job.isBatch = e.transcript?.bind Recorder.Event.job? := by
  cases e with
  | activity event => cases event <;> rfl
  | transcript event => cases event <;> rfl
  | stopped status => rfl

/-- A monitor at work shows a classifier and a recorder at work by themselves. -/
structure Product (m : Stage Monitor Job) (c : Stage Classifier Job) (r : Stage Recorder Job) :
    Prop where
  classifier : m.state.classifier = c.state
  recorder : m.state.recorder = r.state
  notices : m.worker.dropped = 0 → c.worker.dropped = 0 →
    m.worker.done.filter Job.isNotice = c.worker.done
  batches : m.worker.dropped = 0 → r.worker.dropped = 0 →
    m.worker.done.filter Job.isBatch = r.worker.done

/-- **A monitor is the product of its parts.** After any steps its classifier is what a classifier
comes to by its share of them, so the status is the same, and its recorder is what a recorder comes
to by its own share, so the same is buffered. Where no job was dropped, the notices given so far are
those of that classifier, and the batches kept so far those of that recorder. -/
theorem product_of_parts (cfg : Config) (began capacity capacity₁ capacity₂ : Nat)
    (steps : List (Stage.Step Call)) :
    Product ((opening cfg began capacity).run (component cfg) steps).1
      ((Classifier.opening cfg.classifier began capacity₁).run
        (Classifier.component cfg.classifier)
        (steps.filterMap (Stage.Step.pass? Call.classifier?))).1
      ((Recorder.opening cfg.recorder began capacity₂).run (Recorder.component cfg.recorder)
        (steps.filterMap (Stage.Step.pass? Call.recorder?))).1 := by
  have hclassifier := classifier_role cfg
  have hrecorder := recorder_role cfg
  have hshown : Stage.Shows classifier (opening cfg began capacity)
      (Classifier.opening cfg.classifier began capacity₁) := ⟨rfl, rfl⟩
  have hheard : Stage.Shows recorder (opening cfg began capacity)
      (Recorder.opening cfg.recorder began capacity₂) := ⟨rfl, rfl⟩
  refine ⟨?_, ?_, fun hm hc => ?_, fun hm hr => ?_⟩
  · exact (hclassifier.run hshown steps).1.state.symm
  · exact (hrecorder.run hheard steps).1.state.symm
  · have hshare := hclassifier.run_share job?_notice hshown
      (Worker.share_nil Job.isNotice capacity capacity₁) steps hm hc
    exact hshare.done.symm
  · have hshare := hrecorder.run_share job?_batch hheard
      (Worker.share_nil Job.isBatch capacity capacity₂) steps hm hr
    exact hshare.done.symm

/-- Both timers go off every second. -/
def abreast : Config :=
  { classifier := ⟨1000, 0, 64, 2, Nat.succ_pos _, Nat.succ_pos _, Nat.succ_pos _⟩
    recorder := ⟨64, 1000, Nat.succ_pos _, Nat.succ_pos _⟩ }

/-- A session that falls idle just when its buffer is handed over, while the worker is held up. -/
def pausing : List (Stage.Step Call) :=
  [.call (.output [0x61, 0x62]), .hold, .call (.input [0x79, 0x0A]), .sleep 1000, .release,
    .call .exit]

theorem product_of_parts_pausing :
    let m := ((opening abreast 0 2).run (component abreast) pausing).1
    let c := ((Classifier.opening abreast.classifier 0 2).run
      (Classifier.component abreast.classifier)
      (pausing.filterMap (Stage.Step.pass? Call.classifier?))).1
    let r := ((Recorder.opening abreast.recorder 0 2).run (Recorder.component abreast.recorder)
      (pausing.filterMap (Stage.Step.pass? Call.recorder?))).1
    (m.worker.dropped = 0 ∧ c.worker.dropped = 0 ∧ r.worker.dropped = 0) ∧
      m.worker.done = [.notify ⟨.active, .idle⟩,
        .persist [⟨0, .shown ['a', 'b']⟩, ⟨0, .typed ['y', '\n']⟩], .notify ⟨.idle, .exited⟩] ∧
      m.worker.done.filter Job.isNotice = c.worker.done ∧
      m.worker.done.filter Job.isBatch = r.worker.done := by
  have hparts := product_of_parts abreast 0 2 2 2 pausing
  have hdropped :
      ((opening abreast 0 2).run (component abreast) pausing).1.worker.dropped = 0 ∧
        ((Classifier.opening abreast.classifier 0 2).run (Classifier.component abreast.classifier)
          (pausing.filterMap (Stage.Step.pass? Call.classifier?))).1.worker.dropped = 0 ∧
        ((Recorder.opening abreast.recorder 0 2).run (Recorder.component abreast.recorder)
          (pausing.filterMap (Stage.Step.pass? Call.recorder?))).1.worker.dropped = 0 := by
    decide +kernel
  exact ⟨hdropped, by decide +kernel, hparts.notices hdropped.1 hdropped.2.1,
    hparts.batches hdropped.1 hdropped.2.2⟩

end Monitor

end TerminalSession
