/-!
# The worker

Jobs are done by one worker, one after the other, so that whoever submits them never waits. While
the worker is held up by a job, further jobs queue; when the queue is full they are dropped and
counted.
-/

namespace TerminalSession

set_option autoImplicit false

/-- A worker, its queue, and what it has done. -/
structure Worker (κ : Type) where
  /-- How many jobs may wait. -/
  capacity : Nat
  /-- Whether a job holds the worker up. -/
  held : Bool := false
  /-- The jobs that wait, oldest first. -/
  queue : List κ := []
  /-- The jobs done, oldest first. -/
  done : List κ := []
  /-- How many jobs were dropped. -/
  dropped : Nat := 0

namespace Worker

variable {κ : Type}

/-- The longest queue that can be made. -/
def longestQueue : Nat := 0x1FFFFFFFFFFFFFFF

/-- A free worker, if a queue for so many jobs can be made. At least one job may always wait. -/
def ofCapacity? (capacity : Nat) : Option (Worker κ) :=
  if capacity ≤ longestQueue then some { capacity := max capacity 1 } else none

/-- Whether a job submitted now is accepted. -/
def accepts (w : Worker κ) : Bool := !w.held || w.queue.length < w.capacity

/-- Submits a job: a free worker does it, a held one leaves it in the queue if there is room. -/
def submit (w : Worker κ) (job : κ) : Worker κ :=
  if !w.held then { w with done := w.done ++ [job] }
  else if w.queue.length < w.capacity then { w with queue := w.queue ++ [job] }
  else { w with dropped := w.dropped + 1 }

/-- Submits jobs in order. -/
def submitAll (w : Worker κ) (jobs : List κ) : Worker κ := jobs.foldl submit w

/-- A job holds the worker up. It waits in no queue, since the worker has begun it. -/
def hold (w : Worker κ) : Worker κ := { w with held := true }

/-- The worker goes on, and does what has queued. -/
def release (w : Worker κ) : Worker κ :=
  { w with held := false, queue := [], done := w.done ++ w.queue }

/-- The jobs done since so many had been done. -/
def doneSince (w : Worker κ) (count : Nat) : List κ := w.done.drop count

end Worker

end TerminalSession
