import TerminalSession.Proofs.Stage.Run

/-!
# Steps that hold the worker up

A component submits its jobs and never looks at what becomes of them, so it cannot tell whether its
worker is held up, nor how many jobs may wait. `own` leaves out of a run the steps that hold the
worker up and let it go; what is left are the component's own steps. Two runs with the same own
steps come to the same states (`Undisturbed.trace`), whatever their workers can take.

What becomes of the jobs does depend on the worker. Once it has been let go for good it has done the
jobs of a run without holds, in order and but for those dropped (`Undisturbed.part`,
`Undisturbed.missing`).

## What this does NOT decide

Which jobs are dropped is not said, only how many.
-/

set_option autoImplicit false

namespace TerminalSession

/-- The jobs done once the worker has been let go for good. -/
def Worker.doneAtLast {κ : Type} (w : Worker κ) : List κ := w.release.done

namespace Stage

variable {σ ι ε κ : Type}

/-- Whether a step is one of the component, not one of its worker. -/
def Step.isOwn : Step ι → Bool
  | .call _ | .sleep _ => true
  | .hold | .release => false

/-- The component's own steps. -/
def own (steps : List (Step ι)) : List (Step ι) := steps.filter Step.isOwn

/-- The instant and the state that each of the component's own steps leads to. -/
def trace (c : Component σ ι ε κ) (s : Stage σ κ) : List (Step ι) → List (Nat × σ)
  | [] => []
  | step :: rest =>
    let next := (s.step c step).1
    if step.isOwn then (next.now, next.state) :: trace c next rest else trace c next rest

/-- Two stages that differ in nothing but their workers. -/
structure SameMoment (s t : Stage σ κ) : Prop where
  now : t.now = s.now
  state : t.state = s.state

/-- An own step does the same whatever the worker. -/
theorem SameMoment.step {s t : Stage σ κ} (h : SameMoment s t) (c : Component σ ι ε κ)
    (step : Step ι) :
    SameMoment (s.step c step).1 (t.step c step).1 ∧ (t.step c step).2 = (s.step c step).2 := by
  obtain ⟨hnow, hstate⟩ := h
  cases step with
  | call i => simp only [Stage.step, after, hnow, hstate, and_true]; exact ⟨rfl, rfl⟩
  | sleep ms => simp only [Stage.step, after, hnow, hstate, and_true]; exact ⟨rfl, rfl⟩
  | hold => exact ⟨⟨hnow, hstate⟩, rfl⟩
  | release => exact ⟨⟨hnow, hstate⟩, rfl⟩

/-- Any other step does nothing but to the worker. -/
theorem step_of_not_own (c : Component σ ι ε κ) (s : Stage σ κ) {step : Step ι}
    (h : step.isOwn = false) : SameMoment (s.step c step).1 s ∧ (s.step c step).2 = [] := by
  cases step with
  | call i => cases h
  | sleep ms => cases h
  | hold => exact ⟨⟨rfl, rfl⟩, rfl⟩
  | release => exact ⟨⟨rfl, rfl⟩, rfl⟩

/-- **A run goes as its own steps go**, with any other worker. -/
theorem SameMoment.own {s t : Stage σ κ} (h : SameMoment s t) (c : Component σ ι ε κ)
    (steps : List (Step ι)) :
    trace c t (own steps) = trace c s steps ∧
      (t.run c (own steps)).2 = (s.run c steps).2 := by
  induction steps generalizing s t with
  | nil => exact ⟨rfl, rfl⟩
  | cons step steps ih =>
    cases hown : step.isOwn with
    | true =>
      obtain ⟨hnext, hevents⟩ := h.step c step
      obtain ⟨htrace, hrest⟩ := ih hnext
      simp only [Stage.own, List.filter_cons_of_pos hown] at htrace hrest ⊢
      simp only [trace, hown, if_true, run, hnext.now, hnext.state, htrace, hrest, hevents,
        and_self]
    | false =>
      obtain ⟨hsame, hnone⟩ := step_of_not_own c s hown
      obtain ⟨htrace, hrest⟩ :=
        ih (s := (s.step c step).1) ⟨h.now.trans hsame.now, h.state.trans hsame.state⟩
      have hskip : Stage.own (step :: steps) = Stage.own steps :=
        List.filter_cons_of_neg (by rw [hown]; exact Bool.false_ne_true)
      rw [hskip]
      simp only [trace, hown, Bool.false_eq_true, if_false, run, hnone, List.nil_append]
      exact ⟨htrace, hrest⟩

theorem hold_not_mem_own (steps : List (Step ι)) : .hold ∉ own steps := by
  intro hmem
  exact Bool.false_ne_true (List.mem_filter.mp hmem).2

/-- A stage whose worker has been given nothing yet. -/
def fresh (now capacity : Nat) (state : σ) : Stage σ κ := { now, state, worker := { capacity } }

/-- Two runs of a component that its states do not tell apart. Without holds no job is dropped, and
the jobs that come to be done with them are those same jobs, but for the ones dropped. -/
structure Undisturbed (c : Component σ ι ε κ) (s t : Stage σ κ) (steps steps' : List (Step ι)) :
    Prop where
  trace : trace c s steps = trace c t steps'
  free : (t.run c (own steps)).1.worker.dropped = 0
  part : (s.run c steps).1.worker.doneAtLast.Sublist (t.run c (own steps)).1.worker.doneAtLast
  missing : (s.run c steps).1.worker.doneAtLast.length + (s.run c steps).1.worker.dropped =
    (t.run c (own steps)).1.worker.doneAtLast.length
  whole : (s.run c steps).1.worker.dropped = 0 →
    (s.run c steps).1.worker.doneAtLast = (t.run c (own steps)).1.worker.doneAtLast

/-- **Two runs with the same own steps cannot be told apart.** -/
theorem undisturbed (c : Component σ ι ε κ) (now capacity capacity' : Nat) (state : σ)
    {steps steps' : List (Step ι)} (h : own steps = own steps') :
    Undisturbed c (fresh now capacity state) (fresh now capacity' state) steps steps' := by
  have hslow := SameMoment.own (s := fresh now capacity state) (t := fresh now capacity' state)
    ⟨rfl, rfl⟩ c steps
  have hother := SameMoment.own (s := fresh now capacity' state) (t := fresh now capacity' state)
    ⟨rfl, rfl⟩ c steps'
  have haccounts := run_accounts c (s := fresh now capacity state) (Worker.accounts_nil capacity)
    steps
  -- Without holds each job is done as it comes, so all of them are done.
  have hfree := run_worker_of_free c (s := fresh now capacity' state) rfl (hold_not_mem_own steps)
    rfl
  have hall : ((fresh now capacity' state).run c (own steps)).1.worker.doneAtLast =
      ((fresh now capacity state).run c steps).2.filterMap c.job? := by
    rw [hfree, hslow.2]
    exact List.append_nil _
  refine ⟨?_, ?_, ?_, ?_, ?_⟩
  · rw [← hslow.1, ← hother.1, h]
  · rw [hfree]
    rfl
  · rw [hall]
    exact haccounts.kept
  · rw [hall]
    exact haccounts.counted
  · rw [hall]
    exact haccounts.kept_eq

end Stage

end TerminalSession
