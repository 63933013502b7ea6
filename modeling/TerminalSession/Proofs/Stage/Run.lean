import TerminalSession.Stage
import TerminalSession.Proofs.Component.Passing
import TerminalSession.Proofs.Worker.Accounts

/-!
# Runs of a component at work

`Stage.run` takes steps in order and collects what happens in them. Two sorts of law hold of every
run:

- what the calls and the rings of a component each keep, a run keeps (`Keeps.run`). The property may
  speak of the instant, the state and everything that has happened so far;
- the worker has been given exactly the jobs of the events, in order (`run_accounts`).

Time is the run's own: a property is asked to survive a wait only up to the next alarm, so a law can
rely on every ring coming at the instant it is due.
-/

set_option autoImplicit false

namespace TerminalSession.Stage

variable {σ ι ε κ : Type}

/-- Steps in order, and what happens in them. -/
def run (c : Component σ ι ε κ) (s : Stage σ κ) : List (Step ι) → Stage σ κ × List ε
  | [] => (s, [])
  | step :: rest =>
    let first := s.step c step
    let others := run c first.1 rest
    (others.1, first.2 ++ others.2)

theorem run_append (c : Component σ ι ε κ) (s : Stage σ κ) (before after : List (Step ι)) :
    run c s (before ++ after) =
      ((run c (run c s before).1 after).1,
        (run c s before).2 ++ (run c (run c s before).1 after).2) := by
  induction before generalizing s with
  | nil => rfl
  | cons step before ih => simp only [List.cons_append, run, ih, List.append_assoc]

/-! ## What a run keeps -/

/-- A property of instant, state and past events is kept by the allowed calls, by each ring at the
instant it is due, and while nothing is due. -/
structure Keeps (c : Component σ ι ε κ) (allowed : ι → Prop) (inv : Nat → σ → List ε → Prop) :
    Prop where
  call : ∀ {now : Nat} {s : σ} {past : List ε} {i : ι}, allowed i → inv now s past →
    inv now (c.call now i s).1 (past ++ (c.call now i s).2)
  ring : ∀ {now due : Nat} {s : σ} {past : List ε}, c.alarm s = some due → inv now s past →
    inv due (c.ring due s).1 (past ++ (c.ring due s).2)
  wait : ∀ {now later : Nat} {s : σ} {past : List ε}, now ≤ later →
    (∀ due ∈ c.alarm s, later < due) → inv now s past → inv later s past

variable {c : Component σ ι ε κ} {allowed : ι → Prop} {inv : Nat → σ → List ε → Prop}

/-- Whatever the rings on the way, the property holds where time has passed to. -/
theorem Keeps.passes (h : Keeps c allowed inv) {target : Nat} {s t : σ} {events : List ε}
    (hp : c.Passes target s events t) {now : Nat} {past : List ε} (le : now ≤ target)
    (hi : inv now s past) : inv target t (past ++ events) := by
  induction hp generalizing now past with
  | rest beyond => simpa only [List.append_nil] using h.wait le beyond hi
  | ring hdue hle _ ih => simpa only [List.append_assoc] using ih hle (h.ring hdue hi)

/-- One step keeps the property. -/
theorem Keeps.step (h : Keeps c allowed inv) {s : Stage σ κ} {step : Step ι} {past : List ε}
    (ok : ∀ i, step = .call i → allowed i) (hi : inv s.now s.state past) :
    inv (s.step c step).1.now (s.step c step).1.state (past ++ (s.step c step).2) := by
  cases step with
  | call i => exact h.call (ok i rfl) hi
  | sleep ms => exact h.passes (c.elapse_passes _ _) (Nat.le_add_right _ _) hi
  | hold => simpa only [Stage.step, List.append_nil] using hi
  | release => simpa only [Stage.step, List.append_nil] using hi

/-- And so does a run. -/
theorem Keeps.run (h : Keeps c allowed inv) {s : Stage σ κ} {steps : List (Step ι)}
    {past : List ε} (ok : ∀ i, .call i ∈ steps → allowed i) (hi : inv s.now s.state past) :
    inv (s.run c steps).1.now (s.run c steps).1.state (past ++ (s.run c steps).2) := by
  induction steps generalizing s past with
  | nil => simpa only [Stage.run, List.append_nil] using hi
  | cons step steps ih =>
    have hstep := h.step (fun i hs => ok i (hs ▸ List.mem_cons_self)) hi
    simpa only [Stage.run, List.append_assoc] using
      ih (fun i hm => ok i (List.mem_cons_of_mem _ hm)) hstep

theorem Keeps.run_nil (h : Keeps c allowed inv) {s : Stage σ κ} {steps : List (Step ι)}
    (ok : ∀ i, .call i ∈ steps → allowed i) (hi : inv s.now s.state []) :
    inv (s.run c steps).1.now (s.run c steps).1.state (s.run c steps).2 :=
  h.run ok hi

/-- What is kept apart is kept together. -/
theorem Keeps.and {inv' : Nat → σ → List ε → Prop} (h : Keeps c allowed inv)
    (h' : Keeps c allowed inv') :
    Keeps c allowed fun now s past => inv now s past ∧ inv' now s past where
  call ok hi := ⟨h.call ok hi.1, h'.call ok hi.2⟩
  ring hdue hi := ⟨h.ring hdue hi.1, h'.ring hdue hi.2⟩
  wait le beyond hi := ⟨h.wait le beyond hi.1, h'.wait le beyond hi.2⟩

/-! ## The jobs of a run -/

/-- After a step the worker has been given the jobs of the step's events as well. -/
theorem step_accounts (c : Component σ ι ε κ) {s : Stage σ κ} {jobs : List κ}
    (h : s.worker.Accounts jobs) (step : Step ι) :
    (s.step c step).1.worker.Accounts (jobs ++ (s.step c step).2.filterMap c.job?) := by
  cases step with
  | call i => exact h.submitAll _
  | sleep ms => exact h.submitAll _
  | hold => simpa only [Stage.step, List.filterMap_nil, List.append_nil] using h.hold
  | release => simpa only [Stage.step, List.filterMap_nil, List.append_nil] using h.release

/-- The worker has been given the jobs of everything that happened, in order, and no others. -/
theorem run_accounts (c : Component σ ι ε κ) {s : Stage σ κ} {jobs : List κ}
    (h : s.worker.Accounts jobs) (steps : List (Step ι)) :
    (s.run c steps).1.worker.Accounts (jobs ++ (s.run c steps).2.filterMap c.job?) := by
  induction steps generalizing s jobs with
  | nil => simpa only [Stage.run, List.filterMap_nil, List.append_nil] using h
  | cons step steps ih =>
    simpa only [Stage.run, List.filterMap_append, List.append_assoc] using
      ih (step_accounts c h step)

/-- A worker who is free, and stays so, does the jobs of a step. -/
theorem step_worker_of_free (c : Component σ ι ε κ) {s : Stage σ κ} (h : s.worker.held = false)
    {step : Step ι} (never : step ≠ .hold) (hq : s.worker.queue = []) :
    (s.step c step).1.worker =
      { s.worker with done := s.worker.done ++ (s.step c step).2.filterMap c.job? } := by
  cases step with
  | call i => exact Worker.submitAll_of_free h _
  | sleep ms => exact Worker.submitAll_of_free h _
  | hold => exact absurd rfl never
  | release =>
    simpa only [Stage.step, List.filterMap_nil, List.append_nil] using Worker.release_of_free h hq

/-- A worker who is never held up has done the jobs of everything that happened. -/
theorem run_worker_of_free (c : Component σ ι ε κ) {s : Stage σ κ} (h : s.worker.held = false)
    {steps : List (Step ι)} (never : .hold ∉ steps) (hq : s.worker.queue = []) :
    (s.run c steps).1.worker =
      { s.worker with done := s.worker.done ++ (s.run c steps).2.filterMap c.job? } := by
  induction steps generalizing s with
  | nil => simp only [Stage.run, List.filterMap_nil, List.append_nil]
  | cons step steps ih =>
    obtain ⟨hne, hrest⟩ := not_or.mp (fun h => never (List.mem_cons.mpr h))
    have hstep := step_worker_of_free c h (Ne.symm hne) hq
    have hrun := ih (s := (s.step c step).1) (by rw [hstep]; exact h) hrest
      (by rw [hstep]; exact hq)
    simp only [Stage.run, hrun, hstep, List.filterMap_append, List.append_assoc]

end TerminalSession.Stage
