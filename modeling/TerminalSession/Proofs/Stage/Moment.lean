import TerminalSession.Proofs.Stage.Run

/-!
# What a run has done by an instant

A run takes its steps in order, and only waits take time. So each call has its instant (`calls`),
and the steps taken before an instant are a run of their own (`before`): the calls made by then, and
of a wait that reaches the instant the part that lies before it. Where an alarm rings at the
instant, the stage just before it is the one that this shorter run leads to.

Calls made at an instant come after whatever rings there, since a wait lets everything due ring
before the next step is taken.
-/

set_option autoImplicit false

namespace TerminalSession.Stage

variable {σ ι ε κ : Type}

/-- How long a step takes. -/
def Step.duration : Step ι → Nat
  | .sleep ms => ms
  | .call _ | .hold | .release => 0

/-- What of a step fits into so many milliseconds. -/
def Step.within (limit : Nat) : Step ι → Step ι
  | .sleep ms => .sleep (min ms limit)
  | .call i => .call i
  | .hold => .hold
  | .release => .release

/-- The steps taken before an instant, from the one reached now. -/
def before (instant : Nat) : (now : Nat) → List (Step ι) → List (Step ι)
  | _, [] => []
  | now, step :: rest =>
    if instant ≤ now then []
    else step.within (instant - 1 - now) :: before instant (now + step.duration) rest

/-- The calls made, each with its instant. -/
def calls : (now : Nat) → List (Step ι) → List (Nat × ι)
  | _, [] => []
  | now, .call i :: rest => (now, i) :: calls now rest
  | now, .sleep ms :: rest => calls (now + ms) rest
  | now, .hold :: rest => calls now rest
  | now, .release :: rest => calls now rest

theorem step_now (c : Component σ ι ε κ) (s : Stage σ κ) (step : Step ι) :
    (s.step c step).1.now = s.now + step.duration := by
  cases step <;> rfl

theorem le_run_now (c : Component σ ι ε κ) (s : Stage σ κ) (steps : List (Step ι)) :
    s.now ≤ (s.run c steps).1.now := by
  induction steps generalizing s with
  | nil => exact Nat.le_refl _
  | cons step steps ih =>
    have hstep := step_now c s step
    exact Nat.le_trans (by omega) (ih (s.step c step).1)

theorem before_of_le {instant now : Nat} (h : instant ≤ now) (steps : List (Step ι)) :
    before instant now steps = [] := by
  cases steps with
  | nil => rfl
  | cons step steps => rw [before, if_pos h]

/-- No call is made before the run begins. -/
theorem le_of_mem_calls {now : Nat} {steps : List (Step ι)} {call : Nat × ι}
    (h : call ∈ calls now steps) : now ≤ call.1 := by
  induction steps generalizing now with
  | nil => cases h
  | cons step steps ih =>
    cases step with
    | call i =>
      rcases List.mem_cons.mp h with rfl | h
      · exact Nat.le_refl _
      · exact ih h
    | sleep ms => exact Nat.le_trans (Nat.le_add_right now ms) (ih h)
    | hold => exact ih h
    | release => exact ih h

/-- The calls made before an instant are among those made. -/
theorem call_mem_of_mem_before {instant now : Nat} {steps : List (Step ι)} {i : ι}
    (h : .call i ∈ before instant now steps) : .call i ∈ steps := by
  induction steps generalizing now with
  | nil => exact h
  | cons step steps ih =>
    rw [before] at h
    split at h
    next => cases h
    next =>
      rcases List.mem_cons.mp h with h | h
      · cases step with
        | call j =>
          cases h
          exact List.mem_cons_self
        | sleep ms => cases h
        | hold => cases h
        | release => cases h
      · exact List.mem_cons_of_mem _ (ih h)

theorem Step.within_eq_self {limit : Nat} {step : Step ι} (h : step.duration ≤ limit) :
    step.within limit = step := by
  cases step with
  | sleep ms => exact congrArg Step.sleep (Nat.min_eq_left h)
  | call i => rfl
  | hold => rfl
  | release => rfl

/-- The steps taken before an instant that the run gets to lead just before it. -/
theorem run_before_now (c : Component σ ι ε κ) {instant : Nat} {s : Stage σ κ}
    {steps : List (Step ι)} (hbegun : s.now < instant)
    (hreached : instant ≤ (s.run c steps).1.now) :
    (s.run c (before instant s.now steps)).1.now = instant - 1 := by
  induction steps generalizing s with
  | nil => exact absurd hbegun (Nat.not_lt.mpr hreached)
  | cons step steps ih =>
    have hnow := step_now c s step
    rw [before, if_neg (Nat.not_le.mpr hbegun)]
    by_cases hin : instant ≤ s.now + step.duration
    · rw [before_of_le hin, run, run, step_now]
      cases step with
      | sleep ms =>
        simp only [Step.duration] at hin
        simp only [Step.within, Step.duration]
        omega
      | call i => exact absurd hbegun (Nat.not_lt.mpr hin)
      | hold => exact absurd hbegun (Nat.not_lt.mpr hin)
      | release => exact absurd hbegun (Nat.not_lt.mpr hin)
    · rw [Step.within_eq_self (by omega), ← hnow]
      exact ih (by omega) hreached

end TerminalSession.Stage
