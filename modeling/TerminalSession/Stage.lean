import TerminalSession.Component
import TerminalSession.Worker

/-!
# A component at work

A `Stage` is a component's state together with the instant it has reached and the worker that does
its jobs. Steps are calls, the passing of time, and the holding and releasing of the worker; only
the passing of time moves the instant.
-/

namespace TerminalSession

set_option autoImplicit false

/-- A component's state at an instant, and its worker. -/
structure Stage (σ κ : Type) where
  now : Nat
  state : σ
  worker : Worker κ

namespace Stage

variable {σ ι ε κ : Type}

/-- What can happen to a component at work. -/
inductive Step (ι : Type) where
  | call (i : ι)
  /-- So many milliseconds pass. -/
  | sleep (ms : Nat)
  | hold
  | release

/-- The stage after a component has moved to an instant and a state with events: their jobs have
been submitted. -/
def after (c : Component σ ι ε κ) (s : Stage σ κ) (now : Nat) (moved : σ × List ε) : Stage σ κ :=
  { now, state := moved.1, worker := s.worker.submitAll (moved.2.filterMap c.job?) }

/-- One step, and what happened in it. -/
def step (c : Component σ ι ε κ) (s : Stage σ κ) : Step ι → Stage σ κ × List ε
  | .call i =>
    let moved := c.call s.now i s.state
    (s.after c s.now moved, moved.2)
  | .sleep ms =>
    let moved := c.elapse (s.now + ms) s.state
    (s.after c (s.now + ms) moved, moved.2)
  | .hold => ({ s with worker := s.worker.hold }, [])
  | .release => ({ s with worker := s.worker.release }, [])

/-- The end of a component's work: it is stopped by the given call, and the worker does what is
left. -/
def finish (c : Component σ ι ε κ) (stop : ι) (s : Stage σ κ) : Stage σ κ :=
  let s := (s.step c (.call stop)).1
  { s with worker := s.worker.release }

end Stage

end TerminalSession
