import TerminalSession.Proofs.Stage.Run

/-!
# Components in which nothing happens any more

A component is `Frozen` in a state in which it answers no call and has no timer running. From there
on it stays in that state and nothing happens in it, whatever steps are taken (`Frozen.step`,
`Frozen.run`): neither calls nor time move it, and it may be ended again to no effect.

Its worker is given no further job. The jobs it was given before, it may still do: it can be held up
and let go as before, so a job that waited may come to be done (`Still`).
-/

set_option autoImplicit false

namespace TerminalSession.Stage

variable {σ ι ε κ : Type}

/-- A state in which a component answers no call, and in which no timer is running. -/
structure Frozen (c : Component σ ι ε κ) (s : σ) : Prop where
  call : ∀ (now : Nat) (i : ι), c.call now i s = (s, [])
  alarm : c.alarm s = none

/-- One stage comes after another, and only time has passed and the worker got on: the state is the
same, and the worker was given no job. -/
structure Still (s t : Stage σ κ) : Prop where
  state : t.state = s.state
  jobs : t.worker.done ++ t.worker.queue = s.worker.done ++ s.worker.queue
  dropped : t.worker.dropped = s.worker.dropped

theorem Still.refl (s : Stage σ κ) : Still s s := ⟨rfl, rfl, rfl⟩

theorem Still.trans {s t u : Stage σ κ} (h : Still s t) (h' : Still t u) : Still s u :=
  ⟨h'.state.trans h.state, h'.jobs.trans h.jobs, h'.dropped.trans h.dropped⟩

/-- A worker who goes on does what he was given. -/
theorem still_release (s : Stage σ κ) : Still s { s with worker := s.worker.release } :=
  ⟨rfl, List.append_nil _, rfl⟩

variable {c : Component σ ι ε κ}

/-- Time passes, and nothing rings. -/
theorem Frozen.elapse {s : σ} (h : Frozen c s) (target : Nat) : c.elapse target s = (s, []) := by
  apply Component.elapse_of_lt
  intro due hdue
  rw [h.alarm] at hdue
  cases hdue

/-- No step moves a component that is frozen. -/
theorem Frozen.step {s : Stage σ κ} (h : Frozen c s.state) (step : Step ι) :
    Still s (s.step c step).1 ∧ (s.step c step).2 = [] := by
  cases step with
  | call i =>
    simp only [Stage.step, after, h.call, and_true]
    exact ⟨rfl, rfl, rfl⟩
  | sleep ms =>
    simp only [Stage.step, after, h.elapse, and_true]
    exact ⟨rfl, rfl, rfl⟩
  | hold => exact ⟨⟨rfl, rfl, rfl⟩, rfl⟩
  | release => exact ⟨still_release s, rfl⟩

/-- **Nothing happens in a component that is frozen**, whatever steps are taken. -/
theorem Frozen.run {s : Stage σ κ} (h : Frozen c s.state) (steps : List (Step ι)) :
    Still s (s.run c steps).1 ∧ (s.run c steps).2 = [] := by
  induction steps generalizing s with
  | nil => exact ⟨.refl s, rfl⟩
  | cons step steps ih =>
    obtain ⟨hstill, hnone⟩ := h.step step
    have hnext : Frozen c (s.step c step).1.state := by
      rw [hstill.state]
      exact h
    obtain ⟨hrest, hmore⟩ := ih hnext
    refine ⟨hstill.trans hrest, ?_⟩
    rw [Stage.run, hnone, hmore]
    rfl

/-- From a stage on nothing happens, whatever steps are taken, and neither does when the component
is ended after them. -/
structure AtRest (c : Component σ ι ε κ) (stop : ι) (s : Stage σ κ) : Prop where
  run : ∀ steps : List (Step ι), Still s (s.run c steps).1 ∧ (s.run c steps).2 = []
  finish : ∀ steps : List (Step ι), Still s ((s.run c steps).1.finish c stop)

theorem Frozen.atRest {s : Stage σ κ} (h : Frozen c s.state) (stop : ι) : AtRest c stop s := by
  refine ⟨h.run, ?_⟩
  intro steps
  have hrun := (h.run steps).1
  have hfrozen : Frozen c (s.run c steps).1.state := by
    rw [hrun.state]
    exact h
  have hstop := (hfrozen.step (.call stop)).1
  exact (hrun.trans hstop).trans (still_release _)

end TerminalSession.Stage
