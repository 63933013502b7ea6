import Mathlib.Logic.Function.Iterate
import TerminalSession.Proofs.Worker.Loop

/-!
# A thread that is given time

A thread that nothing holds up comes to rest when all before it is done (`Loop.rest_of_letGo`). If it
comes to rest after each step, what it has recorded and what it owes are what a `Worker` has done and
keeps in its queue (`Loop.Shows.run`). Such a run is one of the orders of events
(`Loop.exists_play_eq_run`).

`jobs_in_order` says what this means for whoever submits jobs to a worker. What it means for whoever
waits until all before is done is said in `Proofs/Worker/Settling`.
-/

set_option autoImplicit false

namespace TerminalSession.Worker

variable {ι : Type}

namespace Loop

/-! ## Rest -/

/-- The thread takes so many turns that it has nothing more to do, unless it is held up. -/
def rest (l : Loop ι) : Loop ι := turn^[2 * l.queue.length + 1] l

def isHeldUp (l : Loop ι) : Bool :=
  match l.running with
  | some .wait => true
  | some (.job _) | some (.mark _) | none => false

/-- A step of a worker: the thread comes to rest before the next one. -/
def step (l : Loop ι) : Step (Job ι) → Loop ι
  | .submit job => (l.send (.job job)).rest
  | .hold => if l.isHeldUp then l else ({ l with letGo := false }.send .wait).rest
  | .release => { l with letGo := true }.rest

def run (l : Loop ι) (steps : List (Step (Job ι))) : Loop ι := steps.foldl step l

theorem play_replicate (l : Loop ι) (n : Nat) :
    l.play (List.replicate n .turn) = turn^[n] l := by
  induction n generalizing l with
  | zero => rfl
  | succ n ih => exact ih l.turn

/-- A step is an event with turns of the thread behind it, unless nothing happens. -/
theorem exists_play_eq_step (l : Loop ι) (s : Step (Job ι)) : ∃ events, l.play events = l.step s := by
  have hrest (e : Event ι) : ∃ events, l.play events = (l.event e).rest :=
    ⟨e :: List.replicate _ .turn, play_replicate _ _⟩
  cases s with
  | submit job => exact hrest (.submit job)
  | hold =>
    rw [step]
    split
    · exact ⟨[], rfl⟩
    · exact hrest .occupy
  | release => exact hrest .release

theorem exists_play_eq_run (l : Loop ι) (steps : List (Step (Job ι))) :
    ∃ events, l.play events = l.run steps := by
  induction steps generalizing l with
  | nil => exact ⟨[], rfl⟩
  | cons s steps ih =>
    obtain ⟨first, hfirst⟩ := l.exists_play_eq_step s
    obtain ⟨others, hothers⟩ := ih (l.step s)
    exact ⟨first ++ others, by rw [play_append, hfirst, hothers]; rfl⟩

theorem rest_of_still {l : Loop ι} (h : l.turn = l) : l.rest = l := Function.iterate_fixed h _

/-- What becomes of a thread that ends all that is before it. -/
def emptied (l : Loop ι) : Loop ι :=
  { l with
    running := none
    queue := []
    recorded := l.recorded ++ l.owed
    told := l.told ++ l.marked }

/-- It is the same whether or not the first task has been ended. -/
theorem emptied_ended {l : Loop ι} {task : Task ι} (h : l.running = some task) :
    (l.ended task).emptied = l.emptied := by
  simp only [emptied, owed, marked, tasks_ended h, filterMap_cons_toList, ← List.append_assoc]
  rfl

/-- An idle thread that nothing holds up ends all tasks that wait. -/
theorem turns_of_idle {l : Loop ι} (hidle : l.running = none) (hgo : l.letGo = true) :
    turn^[2 * l.queue.length] l = l.emptied := by
  generalize hqueue : l.queue = queue
  induction queue generalizing l with
  | nil =>
    have hnone : l.tasks = [] := by rw [tasks, hidle, hqueue]; rfl
    have hsame : l.emptied = { l with running := none, queue := [] } := by
      simp only [emptied, owed, marked, hnone, List.filterMap_nil, List.append_nil]
    show l = l.emptied
    rw [hsame, ← hidle, ← hqueue]
  | cons task queue ih =>
    -- It takes the task in one turn and ends it in the next.
    have htaken : l.turn = { l with running := some task, queue } := turn_of_idle hidle hqueue
    have hended : l.turn.turn = ({ l with running := some task, queue } : Loop ι).ended task := by
      rw [htaken]
      exact turn_of_running rfl fun _ => hgo
    have hrest := ih (l := l.turn.turn) (by rw [hended]; rfl) (by rw [hended]; exact hgo)
      (by rw [hended]; rfl)
    rw [List.length_cons, Nat.mul_succ, Function.iterate_add_apply]
    refine hrest.trans ?_
    rw [hended, emptied_ended rfl]
    simp only [emptied, owed, marked, tasks_taken hidle hqueue]

/-- **A thread that nothing holds up comes to rest when all is done.** -/
theorem rest_of_letGo {l : Loop ι} (hgo : l.letGo = true) : l.rest = l.emptied := by
  cases hrunning : l.running with
  | none =>
    rw [rest, Function.iterate_succ_apply', turns_of_idle hrunning hgo]
    rfl
  | some task =>
    have hended : l.turn = l.ended task := turn_of_running hrunning fun _ => hgo
    rw [rest, Function.iterate_succ_apply, hended]
    exact (turns_of_idle (l := l.ended task) rfl hgo).trans (emptied_ended hrunning)

/-! ## What the worker shows of its thread -/

/-- A thread at rest, and the worker it belongs to. -/
structure Shows (l : Loop ι) (w : Worker (Job ι)) : Prop where
  capacity : l.capacity = w.capacity
  room : 0 < w.capacity
  queue : l.queue = w.queue.map .job
  running : l.running = if w.held then some .wait else none
  letGo : l.letGo = !w.held
  waiting : l.waiting = []
  recorded : l.recorded = ids w.done
  dropped : l.dropped = w.dropped

theorem Shows.hasRoom_iff {l : Loop ι} {w : Worker (Job ι)} (h : l.Shows w) :
    l.hasRoom = true ↔ w.queue.length < w.capacity := by
  rw [hasRoom, h.queue, h.waiting, h.capacity, List.length_map]
  exact decide_eq_true_iff

/-- What is owed for jobs that wait, if the task that runs records nothing. -/
theorem owed_of_jobs {l : Loop ι} (hrunning : l.running.bind Task.id? = none)
    {jobs : List (Job ι)} (hqueue : l.queue = jobs.map .job) : l.owed = ids jobs := by
  have hfirst : l.running.toList.filterMap Task.id? = [] := by
    cases h : l.running with
    | none => rfl
    | some task =>
      rw [h] at hrunning
      exact List.filterMap_cons_none hrunning
  rw [owed, tasks, List.filterMap_append, hfirst, hqueue, List.filterMap_map]
  rfl

theorem Shows.turn_eq {l : Loop ι} {w : Worker (Job ι)} (h : l.Shows w) (hw : w.Settled) :
    l.turn = l := by
  cases hheld : w.held with
  | true => simp [turn, h.running, h.letGo, hheld]
  | false => simp [turn, h.running, h.queue, hw.waiting hheld, hheld]

theorem Shows.rest {l : Loop ι} {w : Worker (Job ι)} (h : l.Shows w) (hw : w.Settled) :
    l.rest.Shows w := by
  rw [rest_of_still (h.turn_eq hw)]
  exact h

theorem shows_ofCapacity {capacity : Nat} {w : Worker (Job ι)}
    (h : ofCapacity? capacity = some w) : (ofCapacity capacity).Shows w := by
  obtain rfl := ofCapacity?_eq_some h
  exact ⟨rfl, Nat.le_max_right capacity 1, rfl, rfl, rfl, rfl, rfl, rfl⟩

theorem Shows.submit {l : Loop ι} {w : Worker (Job ι)} (h : l.Shows w) (hw : w.Settled)
    (job : Job ι) : (l.send (.job job)).rest.Shows (w.submit job) := by
  obtain ⟨hfree, -, heq⟩ | ⟨hheld, -, hroom, heq⟩ | ⟨hheld, -, hfull, heq⟩ := w.submit_cases job
  -- An idle thread has an empty queue, and runs the job before it rests.
  · have hempty : w.queue = [] := hw.waiting hfree
    have hroom : l.hasRoom = true := h.hasRoom_iff.mpr (by rw [hempty]; exact h.room)
    have hsend : l.send (.job job) = { l with queue := [job].map .job } := by
      rw [send, if_pos hroom, h.queue, hempty]
      rfl
    have hidle : l.running = none := by simp [h.running, hfree]
    have howed : ({ l with queue := [job].map .job } : Loop ι).owed = ids [job] :=
      owed_of_jobs (by simp [hidle]) rfl
    rw [hsend, rest_of_letGo (by simp [h.letGo, hfree]), emptied, howed, heq]
    exact ⟨h.capacity, h.room, by simp [hempty], by simp [hfree], h.letGo, h.waiting,
      by simp [h.recorded], h.dropped⟩
  -- A thread that is held up rests already, with the job in its queue or without.
  · have hsend : l.send (.job job) = { l with queue := l.queue ++ [.job job] } := by
      rw [send, if_pos (h.hasRoom_iff.mpr hroom)]
    have hshows : (l.send (.job job)).Shows (w.submit job) := by
      rw [hsend, heq]
      exact ⟨h.capacity, h.room, by simp [h.queue], h.running, h.letGo, h.waiting, h.recorded,
        h.dropped⟩
    exact hshows.rest (hw.step (.submit job))
  · have hsend : l.send (.job job) = { l with dropped := l.dropped + 1 } := by
      rw [send, if_neg (mt h.hasRoom_iff.mp (Nat.not_lt.mpr hfull))]
    have hshows : (l.send (.job job)).Shows (w.submit job) := by
      rw [hsend, heq]
      exact ⟨h.capacity, h.room, h.queue, h.running, h.letGo, h.waiting, h.recorded,
        by simp [h.dropped]⟩
    exact hshows.rest (hw.step (.submit job))

theorem Shows.hold {l : Loop ι} {w : Worker (Job ι)} (h : l.Shows w) (hw : w.Settled) :
    (l.step .hold).Shows w.hold := by
  cases hheld : w.held with
  | true =>
    have hup : l.isHeldUp = true := by simp [isHeldUp, h.running, hheld]
    rw [step, if_pos hup]
    exact ⟨h.capacity, h.room, h.queue, by simp [h.running, hheld, Worker.hold],
      by simp [h.letGo, hheld, Worker.hold], h.waiting, h.recorded, h.dropped⟩
  | false =>
    have hempty : w.queue = [] := hw.waiting hheld
    have hroom : l.hasRoom = true := h.hasRoom_iff.mpr (by rw [hempty]; exact h.room)
    have hidle : l.running = none := by simp [h.running, hheld]
    have hup : ¬ l.isHeldUp = true := by simp [isHeldUp, hidle]
    have hsend : { l with letGo := false }.send .wait =
        { l with letGo := false, queue := [.wait] } := by
      have hroom' : ({ l with letGo := false } : Loop ι).hasRoom = true := hroom
      rw [send, if_pos hroom', h.queue, hempty]
      rfl
    have hrest : ({ l with letGo := false, queue := [.wait] } : Loop ι).rest =
        { l with letGo := false, running := some .wait, queue := [] } := by
      simp [Loop.rest, turn, hidle]
    rw [step, if_neg hup, hsend, hrest]
    exact ⟨h.capacity, h.room, by simp [Worker.hold, hempty], rfl, rfl, h.waiting, h.recorded,
      h.dropped⟩

theorem Shows.release {l : Loop ι} {w : Worker (Job ι)} (h : l.Shows w) :
    (l.step .release).Shows w.release := by
  have hnone : l.running.bind Task.id? = none := by
    rw [h.running]
    split
    · rfl
    · rfl
  have howed : ({ l with letGo := true } : Loop ι).owed = ids w.queue := owed_of_jobs hnone h.queue
  rw [step, rest_of_letGo rfl, emptied, howed]
  exact ⟨h.capacity, h.room, rfl, rfl, rfl, h.waiting, by simp [Worker.release, h.recorded],
    h.dropped⟩

theorem Shows.step {l : Loop ι} {w : Worker (Job ι)} (h : l.Shows w) (hw : w.Settled)
    (s : Step (Job ι)) : (l.step s).Shows (w.step s) := by
  cases s with
  | submit job => exact h.submit hw job
  | hold => exact h.hold hw
  | release => exact h.release

/-- **A thread that is given time shows what the worker says**, step by step. -/
theorem Shows.run {l : Loop ι} {w : Worker (Job ι)} (h : l.Shows w) (hw : w.Settled)
    (steps : List (Step (Job ι))) : (l.run steps).Shows (w.run steps) := by
  induction steps generalizing l w with
  | nil => exact h
  | cons s steps ih => exact ih (h.step hw s) (hw.step s)

end Loop

/-- **What becomes of the jobs submitted to a worker**, at every point of every run:

- the jobs done, followed by those that wait, are those accepted, in order;
- no more jobs wait than may;
- the next job will be refused just when the worker is held up and the queue is full;
- the jobs dropped are those refused, so their number never falls;
- a worker let go has done every accepted job once, in order, and none waits;
- its thread has recorded what the jobs done record, whichever of them panicked; as many jobs were
  dropped and the same jobs wait, and once let go it has recorded what the accepted jobs record. -/
theorem jobs_in_order {capacity : Nat} {w : Worker (Job ι)} (h : ofCapacity? capacity = some w)
    (steps : List (Step (Job ι))) :
    (w.run steps).done ++ (w.run steps).queue = w.answered true steps ∧
      (w.run steps).queue.length ≤ max capacity 1 ∧
      ((w.run steps).accepts = false ↔
        (w.run steps).held = true ∧ (w.run steps).queue.length = max capacity 1) ∧
      (w.run steps).dropped = (w.answered false steps).length ∧
      (∀ more, (w.run steps).dropped ≤ (w.run (steps ++ more)).dropped) ∧
      (w.run steps).release.done = w.answered true steps ∧
      (w.run steps).release.queue = [] ∧
      ((Loop.ofCapacity capacity).run steps).recorded = ids (w.run steps).done ∧
      ((Loop.ofCapacity capacity).run steps).queue = (w.run steps).queue.map .job ∧
      ((Loop.ofCapacity capacity).run steps).dropped = (w.run steps).dropped ∧
      (((Loop.ofCapacity capacity).run steps).step .release).recorded =
        ids (w.answered true steps) := by
  have hw : w.Settled := settled_of_ofCapacity? h
  have hrun : (w.run steps).Settled := hw.run steps
  have hshows : ((Loop.ofCapacity capacity).run steps).Shows (w.run steps) :=
    (Loop.shows_ofCapacity h).run hw steps
  have hstart : w = { capacity := max capacity 1 } := ofCapacity?_eq_some h
  have hkept : (w.run steps).done ++ (w.run steps).queue = w.answered true steps := by
    rw [kept_run hw, hstart]
    rfl
  have hmost : (w.run steps).capacity = max capacity 1 := by
    rw [run_capacity, hstart]
  refine ⟨hkept, ?_, ?_, ?_, ?_, hkept, rfl, hshows.recorded, hshows.queue,
    hshows.dropped, ?_⟩
  · rw [← hmost]
    exact hrun.bounded
  · rw [hrun.accepts_eq_false_iff, hmost]
  · rw [dropped_run, hstart, Nat.zero_add]
  · intro more
    rw [run_append]
    exact dropped_le _ more
  · rw [hshows.release.recorded, ← hkept]
    rfl

/-- Jobs on a queue for one, of which one panics while others wait, or find no room. -/
def contested : List (Step (Job Nat)) :=
  [.submit (.record 1), .hold, .submit .panic, .submit (.record 2), .release, .submit (.record 3)]

theorem contested_in_order :
    ofCapacity? 0 = some ({ capacity := 1 } : Worker (Job Nat)) ∧
      (run { capacity := 1 } contested).done ++ (run { capacity := 1 } contested).queue =
        [.record 1, .panic, .record 3] ∧
      (run { capacity := 1 } contested).dropped = 1 := by
  have h : ofCapacity? 0 = some ({ capacity := 1 } : Worker (Job Nat)) := rfl
  obtain ⟨hkept, -, -, hdropped, -⟩ := jobs_in_order h contested
  exact ⟨h, hkept, hdropped⟩

end TerminalSession.Worker
