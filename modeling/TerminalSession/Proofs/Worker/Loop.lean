import TerminalSession.Proofs.Worker.Queue

/-!
# The thread behind a worker

A worker does its jobs on a thread of its own. The thread takes a task off a bounded queue, runs it,
catches its panic if it has one, and turns to the next; whoever submits a task puts it at the end of
the queue, or drops it if the queue is full.

One may also settle the thread, that is ask to be told when all before is done. This sends a marker
through the queue, which is not dropped but waits for room. Room is kept for the markers that wait,
in the order in which they came, so a job may be dropped for their sake.

Here these happen in any order (`Loop.Event`), so a task may wait although the thread is idle. In
every order, the jobs accepted are recorded in order, but for those still owed
(`Loop.recorded_play`), and no more tasks wait than may (`Loop.Fits.play`). Two steps at once are not
considered: each event happens before or after each other one.
-/

set_option autoImplicit false

namespace TerminalSession.Worker

variable {ι : Type}

/-- A job, by what it does. -/
inductive Job (ι : Type) where
  | record (id : ι)
  | panic
  deriving DecidableEq, Repr

/-- Runs a job on what was recorded so far. -/
def Job.run (recorded : List ι) : Job ι → Except Unit (List ι)
  | .record id => .ok (recorded ++ [id])
  | .panic => .error ()

def Job.id? : Job ι → Option ι
  | .record id => some id
  | .panic => none

/-- What the jobs record that do not panic. -/
def ids (jobs : List (Job ι)) : List ι := jobs.filterMap Job.id?

@[simp] theorem ids_nil : ids ([] : List (Job ι)) = [] := rfl

@[simp] theorem ids_record (id : ι) (jobs : List (Job ι)) :
    ids (.record id :: jobs) = id :: ids jobs := rfl

@[simp] theorem ids_panic (jobs : List (Job ι)) : ids (.panic :: jobs) = ids jobs := rfl

@[simp] theorem ids_append (jobs more : List (Job ι)) : ids (jobs ++ more) = ids jobs ++ ids more :=
  List.filterMap_append

/-- What the thread runs. -/
inductive Task (ι : Type) where
  | job (job : Job ι)
  /-- Holds the thread up until it is let go. -/
  | wait
  /-- Tells whoever settles the thread that all before is done. -/
  | mark (caller : Nat)
  deriving DecidableEq, Repr

/-- What a task records. -/
def Task.id? : Task ι → Option ι
  | .job j => j.id?
  | .wait | .mark _ => none

/-- Whom a task tells. -/
def Task.caller? : Task ι → Option Nat
  | .mark caller => some caller
  | .job _ | .wait => none

/-- A thread and the queue in front of it. -/
structure Loop (ι : Type) where
  capacity : Nat
  queue : List (Task ι) := []
  running : Option (Task ι) := none
  /-- Whether a task that waits may end. -/
  letGo : Bool := true
  recorded : List ι := []
  dropped : Nat := 0
  /-- How many have settled the thread so far. They are numbered in that order. -/
  callers : Nat := 0
  /-- Those of them whose marker waits for room, in order. -/
  waiting : List Nat := []
  /-- Those of them who have been told. -/
  told : List Nat := []

namespace Loop

/-- An idle thread. At least one task may always wait. -/
def ofCapacity (capacity : Nat) : Loop ι := { capacity := max capacity 1 }

/-- What the thread has before it: the task that runs, and then the queue. -/
def tasks (l : Loop ι) : List (Task ι) := l.running.toList ++ l.queue

/-- Whether a task that does not wait finds room. The markers that wait come first. -/
def hasRoom (l : Loop ι) : Bool := l.queue.length + l.waiting.length < l.capacity

/-- Puts a task in the queue, if there is room. -/
def send (l : Loop ι) (task : Task ι) : Loop ι :=
  if l.hasRoom then { l with queue := l.queue ++ [task] }
  else { l with dropped := l.dropped + 1 }

/-- Someone settles the thread: a marker waits for room, to tell when all before it is done. -/
def settle (l : Loop ι) : Loop ι :=
  { l with callers := l.callers + 1, waiting := l.waiting ++ [l.callers] }

/-- Whether a marker is one of those that wait and for which there is room. -/
def mayEnter (l : Loop ι) (caller : Nat) : Bool :=
  caller ∈ l.waiting.take (l.capacity - l.queue.length)

/-- A marker is put in the queue, if there is room for it. -/
def enter (l : Loop ι) (caller : Nat) : Loop ι :=
  if l.mayEnter caller then
    { l with queue := l.queue ++ [.mark caller], waiting := l.waiting.erase caller }
  else l

/-- Runs a job. A panic is caught, and nothing has been recorded. -/
def attempt (l : Loop ι) (job : Job ι) : Loop ι :=
  match job.run l.recorded with
  | .ok recorded => { l with recorded }
  | .error () => l

/-- One turn of the thread: it ends the task it runs, if that may end, or else takes the next. -/
def turn (l : Loop ι) : Loop ι :=
  match l.running, l.queue with
  | none, [] => l
  | none, task :: queue => { l with running := some task, queue }
  | some (.job job), _ => { l.attempt job with running := none }
  | some .wait, _ => if l.letGo then { l with running := none } else l
  | some (.mark caller), _ => { l with running := none, told := l.told ++ [caller] }

/-! ## Events in any order -/

inductive Event (ι : Type) where
  | submit (job : Job ι)
  | occupy
  | release
  | turn
  | settle
  | enter (caller : Nat)
  deriving DecidableEq, Repr

def event (l : Loop ι) : Event ι → Loop ι
  | .submit job => l.send (.job job)
  | .occupy => { l with letGo := false }.send .wait
  | .release => { l with letGo := true }
  | .turn => l.turn
  | .settle => l.settle
  | .enter caller => l.enter caller

def play (l : Loop ι) (events : List (Event ι)) : Loop ι := events.foldl event l

theorem play_append (l : Loop ι) (events more : List (Event ι)) :
    l.play (events ++ more) = (l.play events).play more :=
  List.foldl_append

/-- What is still to be recorded. -/
def owed (l : Loop ι) : List ι := l.tasks.filterMap Task.id?

/-- Who is still to be told, of those whose marker is in the queue. -/
def marked (l : Loop ι) : List Nat := l.tasks.filterMap Task.caller?

/-- What an event adds to what will be recorded: the record of a job that finds room. -/
def accepted (l : Loop ι) : Event ι → List ι
  | .submit job => if l.hasRoom then job.id?.toList else []
  | .occupy | .release | .turn | .settle | .enter _ => []

def acceptedAll (l : Loop ι) : List (Event ι) → List ι
  | [] => []
  | e :: events => l.accepted e ++ (l.event e).acceptedAll events

/-- A job that panics leaves everything as it was. -/
theorem attempt_eq (l : Loop ι) (job : Job ι) :
    l.attempt job = { l with recorded := l.recorded ++ ids [job] } := by
  cases job <;> simp [attempt, Job.run]

theorem filterMap_cons_toList {α β : Type} (f : α → Option β) (a : α) (l : List α) :
    (a :: l).filterMap f = (f a).toList ++ l.filterMap f := by
  cases h : f a with
  | none => rw [List.filterMap_cons_none h, Option.toList_none, List.nil_append]
  | some b => rw [List.filterMap_cons_some h, Option.toList_some, List.singleton_append]

/-- The thread is done with the task it ran. -/
def ended (l : Loop ι) (task : Task ι) : Loop ι :=
  { l with
    running := none
    recorded := l.recorded ++ task.id?.toList
    told := l.told ++ task.caller?.toList }

/-- A thread that is not held up ends the task it runs. -/
theorem turn_of_running {l : Loop ι} {task : Task ι} (h : l.running = some task)
    (free : task = .wait → l.letGo = true) : l.turn = l.ended task := by
  cases task with
  | job job =>
    cases job with
    | record id => simp [turn, h, ended, attempt_eq, Task.id?, Task.caller?, Job.id?]
    | panic => simp [turn, h, ended, attempt_eq, Task.id?, Task.caller?, Job.id?]
  | wait => simp [turn, h, free rfl, ended, Task.id?, Task.caller?]
  | mark caller => simp [turn, h, ended, Task.id?, Task.caller?]

/-- An idle thread takes the first task. -/
theorem turn_of_idle {l : Loop ι} (h : l.running = none) {task : Task ι} {queue : List (Task ι)}
    (hqueue : l.queue = task :: queue) : l.turn = { l with running := some task, queue } := by
  simp [turn, h, hqueue]

/-- What a turn can come to. -/
theorem turn_cases (l : Loop ι) :
    l.turn = l ∨
      (∃ task queue, l.running = none ∧ l.queue = task :: queue ∧
        l.turn = { l with running := some task, queue }) ∨
      ∃ task, l.running = some task ∧ l.turn = l.ended task := by
  cases hrunning : l.running with
  | none =>
    cases hqueue : l.queue with
    | nil => exact .inl (by simp [turn, hrunning, hqueue])
    | cons task queue => exact .inr (.inl ⟨task, queue, rfl, rfl, turn_of_idle hrunning hqueue⟩)
  | some task =>
    by_cases hheld : task = .wait ∧ l.letGo = false
    · obtain ⟨rfl, hheld⟩ := hheld
      exact .inl (by simp [turn, hrunning, hheld])
    · refine .inr (.inr ⟨task, rfl, turn_of_running hrunning ?_⟩)
      intro hwait
      exact Bool.of_not_eq_false fun hlet => hheld ⟨hwait, hlet⟩

/-- The first task is taken from the queue, and nothing else. -/
theorem tasks_taken {l : Loop ι} {task : Task ι} {queue : List (Task ι)} (h : l.running = none)
    (hqueue : l.queue = task :: queue) :
    ({ l with running := some task, queue } : Loop ι).tasks = l.tasks := by
  simp [tasks, h, hqueue]

theorem tasks_ended {l : Loop ι} {task : Task ι} (h : l.running = some task) :
    l.tasks = task :: (l.ended task).tasks := by
  simp [tasks, h, ended]

/-- A turn records what was owed first, or nothing. -/
theorem recorded_turn (l : Loop ι) :
    l.turn.recorded ++ l.turn.owed = l.recorded ++ l.owed := by
  obtain heq | ⟨task, queue, hidle, hqueue, heq⟩ | ⟨task, hrunning, heq⟩ := l.turn_cases
  · rw [heq]
  · rw [heq, owed, tasks_taken hidle hqueue]
    rfl
  · rw [heq, owed, owed, tasks_ended hrunning, filterMap_cons_toList, ← List.append_assoc]
    rfl

/-- What an event other than a turn does: it adds to the tasks, or leaves them. -/
structure Adds (l l' : Loop ι) (more : List (Task ι)) : Prop where
  tasks : l'.tasks = l.tasks ++ more
  recorded : l'.recorded = l.recorded
  told : l'.told = l.told

theorem adds_nothing {l l' : Loop ι} (htasks : l'.tasks = l.tasks)
    (hrecorded : l'.recorded = l.recorded) (htold : l'.told = l.told) : Adds l l' [] :=
  ⟨by rw [htasks, List.append_nil], hrecorded, htold⟩

theorem adds_send (l : Loop ι) (task : Task ι) :
    Adds l (l.send task) (if l.hasRoom then [task] else []) := by
  unfold send
  split
  · exact ⟨(List.append_assoc ..).symm, rfl, rfl⟩
  · exact adds_nothing rfl rfl rfl

theorem adds_enter (l : Loop ι) (caller : Nat) :
    Adds l (l.enter caller) (if l.mayEnter caller then [.mark caller] else []) := by
  unfold enter
  split
  · exact ⟨(List.append_assoc ..).symm, rfl, rfl⟩
  · exact adds_nothing rfl rfl rfl

/-- What an event adds to the tasks. -/
def added (l : Loop ι) : Event ι → List (Task ι)
  | .submit job => if l.hasRoom then [.job job] else []
  | .occupy => if l.hasRoom then [.wait] else []
  | .enter caller => if l.mayEnter caller then [.mark caller] else []
  | .release | .turn | .settle => []

theorem adds_event (l : Loop ι) {e : Event ι} (h : e ≠ .turn) : Adds l (l.event e) (l.added e) := by
  cases e with
  | submit job => exact adds_send l (.job job)
  | occupy =>
    obtain ⟨htasks, hrecorded, htold⟩ := adds_send { l with letGo := false } .wait
    exact ⟨htasks, hrecorded, htold⟩
  | release => exact adds_nothing rfl rfl rfl
  | turn => exact absurd rfl h
  | settle => exact adds_nothing rfl rfl rfl
  | enter caller => exact adds_enter l caller

/-- Of what is added, what is accepted is to be recorded. -/
theorem filterMap_added (l : Loop ι) (e : Event ι) : (l.added e).filterMap Task.id? = l.accepted e := by
  cases e with
  | submit job =>
    rw [added, accepted]
    split
    · rw [filterMap_cons_toList, List.filterMap_nil, List.append_nil]
      rfl
    · rfl
  | occupy =>
    rw [added, accepted]
    split
    · rfl
    · rfl
  | release => rfl
  | turn => rfl
  | settle => rfl
  | enter caller =>
    rw [added, accepted]
    split
    · rfl
    · rfl

theorem recorded_event (l : Loop ι) (e : Event ι) :
    (l.event e).recorded ++ (l.event e).owed = l.recorded ++ l.owed ++ l.accepted e := by
  by_cases hturn : e = .turn
  · rw [hturn, event, recorded_turn, accepted, List.append_nil]
  · have hadds := adds_event l hturn
    rw [hadds.recorded, owed, hadds.tasks, List.filterMap_append, filterMap_added, List.append_assoc]
    rfl

/-- **Whatever the order of events**, what is recorded is what was accepted, in order, but for what
is still owed. -/
theorem recorded_play (l : Loop ι) (events : List (Event ι)) :
    (l.play events).recorded ++ (l.play events).owed =
      l.recorded ++ l.owed ++ l.acceptedAll events := by
  induction events generalizing l with
  | nil => simp [play, acceptedAll]
  | cons e events ih =>
    have hfirst := ih (l.event e)
    rw [recorded_event, List.append_assoc] at hfirst
    exact hfirst

/-- The queue has room for what waits. -/
def Fits (l : Loop ι) : Prop := l.queue.length ≤ l.capacity

theorem Fits.send {l : Loop ι} (h : l.Fits) (task : Task ι) : (l.send task).Fits := by
  unfold Loop.send
  split
  next hroom =>
    have hlt : l.queue.length + l.waiting.length < l.capacity := of_decide_eq_true hroom
    rw [Fits, List.length_append]
    exact Nat.lt_of_le_of_lt (Nat.le_add_right ..) hlt
  next => exact h

theorem Fits.enter {l : Loop ι} (h : l.Fits) (caller : Nat) : (l.enter caller).Fits := by
  unfold Loop.enter
  split
  next hmay =>
    have hmem : caller ∈ l.waiting.take (l.capacity - l.queue.length) := of_decide_eq_true hmay
    have hpos : 0 < l.capacity - l.queue.length := by
      apply Nat.pos_of_ne_zero
      intro hzero
      rw [hzero] at hmem
      cases hmem
    rw [Fits, List.length_append]
    exact Nat.lt_of_sub_pos hpos
  next => exact h

theorem Fits.turn {l : Loop ι} (h : l.Fits) : l.turn.Fits := by
  obtain heq | ⟨task, queue, -, hqueue, heq⟩ | ⟨task, -, heq⟩ := l.turn_cases
  · rw [heq]
    exact h
  · rw [Fits, hqueue] at h
    rw [heq]
    exact Nat.le_of_succ_le h
  · rw [heq]
    exact h

theorem Fits.event {l : Loop ι} (h : l.Fits) (e : Event ι) : (l.event e).Fits := by
  cases e with
  | submit job => exact h.send (.job job)
  | occupy =>
    have hheld : Fits { l with letGo := false } := h
    exact hheld.send .wait
  | release => exact h
  | turn => exact h.turn
  | settle => exact h
  | enter caller => exact h.enter caller

/-- **Whatever the order of events**, no more tasks wait than may. -/
theorem Fits.play {l : Loop ι} (h : l.Fits) (events : List (Event ι)) : (l.play events).Fits := by
  induction events generalizing l with
  | nil => exact h
  | cons e events ih => exact ih (h.event e)

end Loop

end TerminalSession.Worker
