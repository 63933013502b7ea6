/-!
# Components with timers

A component changes when it is called and when a timer of its own goes off. Time is an input: a call
comes with the instant at which it is made, and a component shows the instant of its next timer, its
*alarm*, without reading any clock. `Component.elapse` lets time pass up to an instant: every alarm
due by then rings at the instant it is due, in order. The law `alarm_ring`, that an alarm which has
rung is followed only by later ones, is what makes this come to an end.

What happens along the way is reported as a list of events; some of them are jobs for a worker,
which `Component.job?` picks out.
-/

namespace TerminalSession

set_option autoImplicit false

/-- A component with states `σ`, calls `ι`, events `ε` and jobs `κ`. -/
structure Component (σ ι ε κ : Type) where
  /-- What a call at an instant does. -/
  call : (now : Nat) → ι → σ → σ × List ε
  /-- The instant at which the next timer goes off, unless none is running. -/
  alarm : σ → Option Nat
  /-- What the alarm does at its instant. -/
  ring : (now : Nat) → σ → σ × List ε
  /-- The job that an event submits, if it submits one. -/
  job? : ε → Option κ
  alarm_ring : ∀ {now next : Nat} {s : σ},
    alarm s = some now → alarm (ring now s).1 = some next → now < next

namespace Component

variable {σ ι ε κ : Type}

/-- How many instants up to and with the target the alarm could still ring at. -/
def remaining (c : Component σ ι ε κ) (target : Nat) (s : σ) : Nat :=
  match c.alarm s with
  | none => 0
  | some due => target + 1 - due

theorem remaining_ring (c : Component σ ι ε κ) {target due : Nat} {s : σ}
    (h : c.alarm s = some due) (le : due ≤ target) :
    c.remaining target (c.ring due s).1 < c.remaining target s := by
  simp only [remaining, h]
  cases h' : c.alarm (c.ring due s).1 with
  | none => simp only; omega
  | some next =>
    have := c.alarm_ring h h'
    simp only
    omega

/-- Lets time pass up to an instant, after earlier events. -/
def elapseAfter (c : Component σ ι ε κ) (target : Nat) (s : σ) (events : List ε) : σ × List ε :=
  match _ : c.alarm s with
  | none => (s, events)
  | some due =>
    if _ : due ≤ target then
      elapseAfter c target (c.ring due s).1 (events ++ (c.ring due s).2)
    else (s, events)
termination_by c.remaining target s
decreasing_by exact c.remaining_ring ‹_› ‹_›

/-- Lets time pass up to an instant: what becomes of the state, and what happened. -/
def elapse (c : Component σ ι ε κ) (target : Nat) (s : σ) : σ × List ε :=
  c.elapseAfter target s []

end Component

end TerminalSession
