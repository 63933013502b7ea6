import TerminalSession.Proofs.Worker.Accounts

/-!
# A worker's queue over a run of steps

Jobs are submitted while the worker is now held up, now let go. Whether a submitted job is accepted
is known at once (`Worker.accepts`), so `answered true` and `answered false` list the accepted and
the refused jobs of a run without looking at what becomes of them. What does become of them:

- the jobs done, followed by those that wait, are the accepted ones in order (`kept_run`);
- the refused ones are counted (`dropped_run`);
- the queue keeps to its capacity, and none waits for a worker who is free (`Settled.run`).

The jobs may be of any kind here, and doing one cannot fail; `Worker.Loop` says what a failing job
does to the others.
-/

set_option autoImplicit false

namespace TerminalSession.Worker

variable {κ : Type}

/-- What can happen to a worker. -/
inductive Step (κ : Type) where
  | submit (job : κ)
  | hold
  | release
  deriving DecidableEq, Repr

def step (w : Worker κ) : Step κ → Worker κ
  | .submit job => w.submit job
  | .hold => w.hold
  | .release => w.release

def run (w : Worker κ) (steps : List (Step κ)) : Worker κ := steps.foldl step w

/-- The job that a step submits, if this is the answer to it. -/
def answer (answer : Bool) (w : Worker κ) : Step κ → List κ
  | .submit job => if w.accepts = answer then [job] else []
  | .hold | .release => []

/-- The jobs that got an answer in a run: those accepted, or those refused. -/
def answered (answer : Bool) (w : Worker κ) : List (Step κ) → List κ
  | [] => []
  | step :: steps => w.answer answer step ++ (w.step step).answered answer steps

theorem run_cons (w : Worker κ) (step : Step κ) (steps : List (Step κ)) :
    w.run (step :: steps) = (w.step step).run steps := rfl

theorem run_append (w : Worker κ) (steps more : List (Step κ)) :
    w.run (steps ++ more) = (w.run steps).run more :=
  List.foldl_append

/-- No more jobs wait than may, and none for a worker who is free. -/
structure Settled (w : Worker κ) : Prop where
  waiting : w.held = false → w.queue = []
  bounded : w.queue.length ≤ w.capacity

theorem ofCapacity?_eq_some {capacity : Nat} {w : Worker κ} (h : ofCapacity? capacity = some w) :
    w = { capacity := max capacity 1 } := by
  rw [ofCapacity?] at h
  split at h
  · exact (Option.some.inj h).symm
  · exact absurd h (by simp)

theorem settled_of_ofCapacity? {capacity : Nat} {w : Worker κ}
    (h : ofCapacity? capacity = some w) : w.Settled := by
  obtain rfl := ofCapacity?_eq_some h
  exact ⟨fun _ => rfl, Nat.zero_le _⟩

theorem Settled.step {w : Worker κ} (h : w.Settled) (s : Step κ) : (w.step s).Settled := by
  cases s with
  | submit job =>
    rw [Worker.step]
    obtain ⟨hfree, -, heq⟩ | ⟨hheld, -, hroom, heq⟩ | ⟨hheld, -, -, heq⟩ := w.submit_cases job
    · rw [heq]
      exact ⟨h.waiting, h.bounded⟩
    · rw [heq]
      refine ⟨fun hfree => ?_, ?_⟩
      · exact Bool.noConfusion (hheld.symm.trans hfree)
      · rw [List.length_append]
        exact hroom
    · rw [heq]
      exact ⟨h.waiting, h.bounded⟩
  | hold => exact ⟨fun hfree => Bool.noConfusion hfree, h.bounded⟩
  | release => exact ⟨fun _ => rfl, Nat.zero_le _⟩

theorem Settled.run {w : Worker κ} (h : w.Settled) (steps : List (Step κ)) :
    (w.run steps).Settled := by
  induction steps generalizing w with
  | nil => exact h
  | cons step steps ih => exact ih (h.step step)

@[simp] theorem step_capacity (w : Worker κ) (s : Step κ) : (w.step s).capacity = w.capacity := by
  cases s with
  | submit job =>
    obtain ⟨-, -, heq⟩ | ⟨-, -, -, heq⟩ | ⟨-, -, -, heq⟩ := w.submit_cases job <;>
      rw [step, heq]
  | hold => rfl
  | release => rfl

@[simp] theorem run_capacity (w : Worker κ) (steps : List (Step κ)) :
    (w.run steps).capacity = w.capacity := by
  induction steps generalizing w with
  | nil => rfl
  | cons step steps ih => rw [run_cons, ih, step_capacity]

/-- What is done and what waits grow by what is accepted. -/
theorem kept_step {w : Worker κ} (h : w.Settled) (s : Step κ) :
    (w.step s).done ++ (w.step s).queue = w.done ++ w.queue ++ w.answer true s := by
  cases s with
  | submit job =>
    obtain ⟨hfree, haccepts, heq⟩ | ⟨-, haccepts, -, heq⟩ | ⟨-, haccepts, -, heq⟩ :=
      w.submit_cases job
    · simp [step, answer, heq, haccepts, h.waiting hfree]
    · simp [step, answer, heq, haccepts]
    · simp [step, answer, heq, haccepts]
  | hold => simp [step, answer, hold]
  | release => simp [step, answer, release]

theorem kept_run {w : Worker κ} (h : w.Settled) (steps : List (Step κ)) :
    (w.run steps).done ++ (w.run steps).queue =
      w.done ++ w.queue ++ w.answered true steps := by
  induction steps generalizing w with
  | nil => simp [run, answered]
  | cons step steps ih =>
    rw [run_cons, ih (h.step step), kept_step h, answered, List.append_assoc]

theorem dropped_step (w : Worker κ) (s : Step κ) :
    (w.step s).dropped = w.dropped + (w.answer false s).length := by
  cases s with
  | submit job =>
    obtain ⟨-, haccepts, heq⟩ | ⟨-, haccepts, -, heq⟩ | ⟨-, haccepts, -, heq⟩ :=
      w.submit_cases job <;>
      simp [step, answer, heq, haccepts]
  | hold => rfl
  | release => rfl

theorem dropped_run (w : Worker κ) (steps : List (Step κ)) :
    (w.run steps).dropped = w.dropped + (w.answered false steps).length := by
  induction steps generalizing w with
  | nil => rfl
  | cons step steps ih =>
    rw [run_cons, ih, dropped_step, answered, List.length_append, Nat.add_assoc]

theorem dropped_le (w : Worker κ) (steps : List (Step κ)) : w.dropped ≤ (w.run steps).dropped := by
  rw [dropped_run]
  exact Nat.le_add_right _ _

/-- A job is refused just when the worker is held up and the queue is full. -/
theorem Settled.accepts_eq_false_iff {w : Worker κ} (h : w.Settled) :
    w.accepts = false ↔ w.held = true ∧ w.queue.length = w.capacity := by
  have hbound := h.bounded
  simp only [accepts, Bool.or_eq_false_iff, Bool.not_eq_false', decide_eq_false_iff_not, Nat.not_lt]
  constructor
  · rintro ⟨hheld, hfull⟩
    exact ⟨hheld, by omega⟩
  · rintro ⟨hheld, hfull⟩
    exact ⟨hheld, by omega⟩

end TerminalSession.Worker
