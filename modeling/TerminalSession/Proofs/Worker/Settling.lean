import Mathlib.Data.List.Perm.Basic
import Mathlib.Data.List.TakeWhile
import TerminalSession.Proofs.Worker.Rest

/-!
# Waiting until all before is done

Whoever settles a thread sends a marker through its queue and is told when the marker has run. In
every order of events,

- each of them is told once, or the marker is still in the queue or waits for room (`counted_play`);
- one who is told finds recorded all that was accepted before: what is still owed then was accepted
  later (`settled_play`).

The invariant behind this speaks of the tasks ahead of the marker (`Behind`): what they record
completes what was accepted before. While the marker waits for room these are all tasks, since it
enters behind them.

Nobody is told by a thread that is held up. One that is not tells everybody who waits, if it is given
time and so are they, and comes to rest as if nobody had asked (`serve_waiting`, `serve_settle`). So
what is seen of a thread each time it has been settled is what is seen of it at rest.
-/

set_option autoImplicit false

namespace TerminalSession.Worker.Loop

variable {ι : Type}

/-! ## Each is told once -/

/-- Those who have settled the thread have been told, or their marker is in the queue, or it waits
for room. -/
def Counted (l : Loop ι) : Prop :=
  (l.told ++ (l.marked ++ l.waiting)).Perm (List.range l.callers)

theorem Counted.send {l : Loop ι} (h : l.Counted) {task : Task ι} (hnone : task.caller? = none) :
    (l.send task).Counted := by
  unfold Loop.send
  split
  next =>
    have hmarked : ({ l with queue := l.queue ++ [task] } : Loop ι).marked = l.marked := by
      simp [marked, tasks, hnone]
    rw [Counted, hmarked]
    exact h
  next => exact h

theorem Counted.settle {l : Loop ι} (h : l.Counted) : l.settle.Counted := by
  have hmore : l.told ++ (l.marked ++ (l.waiting ++ [l.callers])) =
      l.told ++ (l.marked ++ l.waiting) ++ [l.callers] := by
    simp only [List.append_assoc]
  show (l.told ++ (l.marked ++ (l.waiting ++ [l.callers]))).Perm (List.range (l.callers + 1))
  rw [hmore, List.range_succ]
  exact h.append_right [l.callers]

theorem Counted.enter {l : Loop ι} (h : l.Counted) (caller : Nat) : (l.enter caller).Counted := by
  unfold Loop.enter
  split
  next hmay =>
    have hmem : caller ∈ l.waiting := List.mem_of_mem_take (of_decide_eq_true hmay)
    have hmarked : ({ l with
        queue := l.queue ++ [.mark caller]
        waiting := l.waiting.erase caller } : Loop ι).marked = l.marked ++ [caller] := by
      simp [marked, tasks, Task.caller?]
    rw [Counted, hmarked, List.append_assoc, List.singleton_append]
    exact (((List.perm_cons_erase hmem).symm.append_left l.marked).append_left l.told).trans h
  next => exact h

theorem Counted.turn {l : Loop ι} (h : l.Counted) : l.turn.Counted := by
  obtain heq | ⟨task, queue, hidle, hqueue, heq⟩ | ⟨task, hrunning, heq⟩ := l.turn_cases
  · rw [heq]
    exact h
  · rw [heq, Counted, marked, tasks_taken hidle hqueue]
    exact h
  · rw [Counted, marked, tasks_ended hrunning, filterMap_cons_toList, List.append_assoc,
      ← List.append_assoc] at h
    rw [heq]
    exact h

theorem Counted.event {l : Loop ι} (h : l.Counted) (e : Event ι) : (l.event e).Counted := by
  cases e with
  | submit job => exact h.send rfl
  | occupy =>
    have hheld : Counted { l with letGo := false } := h
    exact hheld.send rfl
  | release => exact h
  | turn => exact h.turn
  | settle => exact h.settle
  | enter caller => exact h.enter caller

/-- **Whoever settles a thread is told once at most**, and is not forgotten. -/
theorem counted_play (capacity : Nat) (events : List (Event ι)) :
    ((ofCapacity capacity : Loop ι).play events).Counted := by
  have hkept {l : Loop ι} (h : l.Counted) : (l.play events).Counted := by
    induction events generalizing l with
    | nil => exact h
    | cons e events ih => exact ih (h.event e)
  exact hkept (List.Perm.refl [])

/-! ## What is ahead of a marker -/

/-- The tasks ahead of a caller's marker, or all if it is not among them. -/
def ahead (l : Loop ι) (caller : Nat) : List (Task ι) :=
  l.tasks.takeWhile fun task => task.caller? ≠ some caller

/-- What was there before a caller asked has been recorded, but for what is ahead of the marker; and
all of it once the caller has been told. -/
structure Behind (past : List ι) (caller : Nat) (l : Loop ι) : Prop where
  ahead : past <+: l.recorded ++ (l.ahead caller).filterMap Task.id?
  told : caller ∈ l.told → past <+: l.recorded

theorem takeWhile_isPrefix_append {α : Type} (p : α → Bool) (l more : List α) :
    l.takeWhile p <+: (l ++ more).takeWhile p := by
  rw [List.takeWhile_append]
  split
  · exact (List.takeWhile_prefix p).trans (List.prefix_append l _)
  · exact List.prefix_rfl

variable {past : List ι} {caller : Nat}

/-- Whatever is added comes behind. -/
theorem Behind.adds {l l' : Loop ι} {more : List (Task ι)} (h : Behind past caller l)
    (hadds : Adds l l' more) : Behind past caller l' := by
  have hahead : l.ahead caller <+: l'.ahead caller := by
    rw [Loop.ahead, Loop.ahead, hadds.tasks]
    exact takeWhile_isPrefix_append _ l.tasks more
  constructor
  · rw [hadds.recorded]
    exact h.ahead.trans ((List.prefix_append_right_inj _).mpr (hahead.filterMap _))
  · rw [hadds.recorded, hadds.told]
    exact h.told

/-- Of what is ahead, the first is recorded first; and where the marker comes first, nothing is. -/
theorem Behind.ended {l : Loop ι} {task : Task ι} (hrunning : l.running = some task)
    (h : Behind past caller l) : Behind past caller (l.ended task) := by
  obtain ⟨hahead, htold⟩ := h
  rw [Loop.ahead, tasks_ended hrunning, List.takeWhile_cons] at hahead
  by_cases hmark : task.caller? = some caller
  · rw [if_neg (by simp [hmark]), List.filterMap_nil, List.append_nil] at hahead
    have hrecorded : past <+: (l.ended task).recorded := hahead.trans (List.prefix_append ..)
    exact ⟨hrecorded.trans (List.prefix_append ..), fun _ => hrecorded⟩
  · rw [if_pos (by simp [hmark]), filterMap_cons_toList, ← List.append_assoc] at hahead
    refine ⟨hahead, fun hmem => ?_⟩
    rcases List.mem_append.mp hmem with hmem | hmem
    · exact (htold hmem).trans (List.prefix_append ..)
    · exact absurd (Option.mem_toList.mp hmem) hmark

theorem Behind.event {l : Loop ι} (h : Behind past caller l) (e : Event ι) :
    Behind past caller (l.event e) := by
  by_cases hturn : e = .turn
  · rw [hturn, Loop.event]
    obtain heq | ⟨task, queue, hidle, hqueue, heq⟩ | ⟨task, hrunning, heq⟩ := l.turn_cases
    · rw [heq]
      exact h
    · rw [heq]
      exact h.adds (adds_nothing (tasks_taken hidle hqueue) rfl rfl)
    · rw [heq]
      exact h.ended hrunning
  · exact h.adds (adds_event l hturn)

theorem Behind.play {l : Loop ι} (h : Behind past caller l) (events : List (Event ι)) :
    Behind past caller (l.play events) := by
  induction events generalizing l with
  | nil => exact h
  | cons e events ih => exact ih (h.event e)

/-- Whoever settles the thread is behind all that there is. -/
theorem Counted.behind_settle {l : Loop ι} (h : l.Counted) :
    Behind (l.recorded ++ l.owed) l.callers l.settle := by
  have hnew {number : Nat} (hmem : number ∈ l.told ++ (l.marked ++ l.waiting)) :
      number ≠ l.callers :=
    Nat.ne_of_lt (List.mem_range.mp (h.subset hmem))
  have hall : l.settle.ahead l.callers = l.tasks := by
    have hne : ∀ task ∈ l.tasks, decide (task.caller? ≠ some l.callers) = true := by
      intro task htask
      refine decide_eq_true fun hmark => hnew ?_ rfl
      have hmarked : l.callers ∈ l.marked := List.mem_filterMap.mpr ⟨task, htask, hmark⟩
      exact List.mem_append_right _ (List.mem_append_left _ hmarked)
    exact List.takeWhile_eq_self_iff.mpr hne
  constructor
  · rw [hall]
    exact List.prefix_rfl
  · intro htold
    exact absurd rfl (hnew (List.mem_append_left _ htold))

/-- **Whoever is told finds done all that was accepted before**, whatever happens in between: it has
been recorded, and what is still owed was accepted later. -/
theorem settled_play (capacity : Nat) (before after : List (Event ι)) :
    let asked := (ofCapacity capacity : Loop ι).play before
    let found := asked.settle.play after
    asked.callers ∈ found.told →
      ∃ late, found.recorded = (ofCapacity capacity : Loop ι).acceptedAll before ++ late ∧
        asked.settle.acceptedAll after = late ++ found.owed := by
  intro asked found htold
  have hbefore : asked.recorded ++ asked.owed = (ofCapacity capacity).acceptedAll before :=
    recorded_play _ before
  have hafter : found.recorded ++ found.owed =
      asked.recorded ++ asked.owed ++ asked.settle.acceptedAll after := recorded_play _ after
  have hbehind := (counted_play capacity before).behind_settle.play after
  obtain ⟨late, hlate⟩ := hbehind.told htold
  refine ⟨late, by rw [← hbefore, hlate], ?_⟩
  rw [← hlate, List.append_assoc] at hafter
  exact (List.append_cancel_left hafter).symm

/-! ## Given time -/

/-- The thread is given time, and so are those whose marker waits, one after the other. -/
def serve (l : Loop ι) : List Nat → Loop ι
  | [] => l.rest
  | caller :: callers => (l.rest.enter caller).serve callers

/-- This is one of the orders of events. -/
theorem exists_play_eq_serve (l : Loop ι) (callers : List Nat) :
    ∃ events, l.play events = l.serve callers := by
  induction callers generalizing l with
  | nil => exact ⟨_, play_replicate l _⟩
  | cons caller callers ih =>
    obtain ⟨others, hothers⟩ := ih (l.rest.enter caller)
    refine ⟨List.replicate (2 * l.queue.length + 1) .turn ++ .enter caller :: others, ?_⟩
    rw [play_append, play_replicate, serve, ← hothers]
    rfl

/-- **Everybody who waits is told**, in order, by a thread that is not held up; but for this it comes
to rest as it would. -/
theorem serve_waiting {l : Loop ι} (hgo : l.letGo = true) (hroom : 0 < l.capacity) :
    l.serve l.waiting =
      { l.rest with waiting := [], told := l.rest.told ++ l.waiting } := by
  generalize hwaiting : l.waiting = callers
  induction callers generalizing l with
  | nil =>
    rw [serve, rest_of_letGo hgo, List.append_nil, ← hwaiting]
    rfl
  | cons caller callers ih =>
    have hmay : l.emptied.mayEnter caller = true := by
      refine decide_eq_true ?_
      show caller ∈ l.waiting.take l.capacity
      obtain ⟨more, hmore⟩ := Nat.exists_eq_succ_of_ne_zero (Nat.ne_of_gt hroom)
      rw [hwaiting, hmore]
      exact List.mem_cons_self
    have henter : l.emptied.enter caller =
        { l.emptied with queue := [.mark caller], waiting := callers } := by
      rw [enter, if_pos hmay]
      simp only [emptied, hwaiting, List.erase_cons_head, List.nil_append]
    have hgo' : (l.emptied.enter caller).letGo = true := by
      rw [henter]
      exact hgo
    -- The others wait for a thread that has only this marker before it.
    have hserved := ih hgo' (by rw [henter]; exact hroom) (by rw [henter])
    rw [serve, rest_of_letGo hgo, hserved, rest_of_letGo hgo', henter]
    simp [emptied, owed, marked, tasks, Task.id?, Task.caller?]

/-- **Whoever settles a thread that is not held up is told**, given time, and then all is recorded
that had been accepted. -/
theorem serve_settle {l : Loop ι} (hgo : l.letGo = true) (hroom : 0 < l.capacity) :
    let served := l.settle.serve l.settle.waiting
    l.callers ∈ served.told ∧ served.recorded = l.recorded ++ l.owed ∧ served.owed = [] := by
  intro served
  have hserved : served = _ := serve_waiting (l := l.settle) hgo hroom
  have hrest : l.settle.rest = l.settle.emptied := rest_of_letGo hgo
  rw [hserved, hrest]
  refine ⟨List.mem_append_right _ (List.mem_append_right _ List.mem_cons_self), rfl, rfl⟩

/-- A job finds no room while a marker waits for some, though the thread has taken the only task in
the queue. -/
example :
    let l := (ofCapacity 1 : Loop Nat).play
      [.submit (.record 1), .settle, .turn, .submit (.record 2)]
    l.dropped = 1 ∧ l.waiting = [0] ∧ (l.serve l.waiting).recorded = [1] ∧
      (l.serve l.waiting).told = [0] := by
  decide

end TerminalSession.Worker.Loop
