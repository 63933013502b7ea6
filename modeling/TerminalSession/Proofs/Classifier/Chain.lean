import Mathlib.Data.List.Chain
import TerminalSession.Classifier
import TerminalSession.Proofs.Stage.Frozen

/-!
# The changes of status form a chain

A classifier changes its status for three reasons: output came, the process exited, or the idle
timer found the session silent. All three go through one debounced setter, and this module says what
every sequence of them looks like from outside.

What one move can do is said once (`Moved`): it accepts nothing and leaves status and last change as
they were, or it accepts one change, away from the status there was, to another one, late enough
after the last. Calls and rings are moves (`call_moved`, `ring_moved`). `History` ties the status
and the time of the last change to the changes accepted so far; a move keeps it (`History.moved`),
and so does a run, whose rings come when they are due.

## What this does NOT decide

When a silent session goes idle, and which status output asks for, are not settled here: any moves
of this sort form a chain.
-/

set_option autoImplicit false

namespace TerminalSession.Classifier

/-- A change of status that was accepted, and when. -/
structure Accepted where
  time : Nat
  change : Change
  deriving DecidableEq, Repr

/-- The change that an event tells of, if it was accepted. -/
def Event.accepted? : Event → Option Accepted
  | .changed time change => some { time, change }
  | .debounced .. | .silent .. | .stopped => none

/-- The changes accepted, in order. -/
def accepted (events : List Event) : List Accepted := events.filterMap Event.accepted?

theorem accepted_append (events more : List Event) :
    accepted (events ++ more) = accepted events ++ accepted more := by
  simp only [accepted, List.filterMap_append]

/-- Accepted changes are told, each once, and nothing else is. -/
theorem jobs_eq_notify (events : List Event) :
    events.filterMap Event.job? = (accepted events).map fun a => .notify a.change := by
  rw [accepted, List.map_filterMap]
  congr 1
  funext event
  cases event <;> rfl

/-- Changes that lead from the initial status to the current one. -/
structure Chain (debounce : Nat) (changes : List Accepted) (current : Status) : Prop where
  starts : ∀ a ∈ changes.head?, a.change.previous = .active
  links : changes.IsChain fun a b => a.change.current = b.change.previous
  differ : ∀ a ∈ changes, a.change.previous ≠ a.change.current
  ends : current = (changes.getLast?.map fun a => a.change.current).getD .active
  spaced : changes.IsChain fun a b => a.time + debounce ≤ b.time
  /-- No change leaves an exited session. -/
  terminal : ∀ a ∈ changes, a.change.previous ≠ .exited
  /-- Only an active session falls idle. -/
  idle : ∀ a ∈ changes, a.change.current = .idle → a.change.previous = .active

theorem chain_nil (debounce : Nat) : Chain debounce [] .active :=
  ⟨nofun, .nil, nofun, rfl, .nil, nofun, nofun⟩

/-- A further change that begins where the chain ends prolongs it. -/
theorem Chain.snoc {debounce : Nat} {changes : List Accepted} {current : Status}
    (h : Chain debounce changes current) (time : Nat) {next : Status} (differs : next ≠ current)
    (live : current ≠ .exited) (fromActive : next = .idle → current = .active)
    (late : ∀ last ∈ changes.getLast?, last.time + debounce ≤ time) :
    Chain debounce (changes ++ [{ time, change := { previous := current, current := next } }])
      next := by
  have each {p : Accepted → Prop} (hp : ∀ a ∈ changes, p a)
      (hn : p { time, change := { previous := current, current := next } }) :
      ∀ a ∈ changes ++ [{ time, change := { previous := current, current := next } }], p a := by
    intro a ha
    rcases List.mem_append.mp ha with ha | ha
    · exact hp a ha
    · exact List.mem_singleton.mp ha ▸ hn
  refine ⟨?_, ?_, each h.differ differs.symm, ?_, ?_, each h.terminal live, each h.idle fromActive⟩
  · intro a ha
    cases changes with
    | nil =>
      cases ha
      exact h.ends
    | cons first rest => exact h.starts a ha
  · refine List.isChain_append.mpr ⟨h.links, .singleton _, fun a ha b hb => ?_⟩
    cases hb
    rw [h.ends, Option.mem_def.mp ha]
    rfl
  · rw [List.getLast?_concat]
    rfl
  · refine List.isChain_append.mpr ⟨h.spaced, .singleton _, fun a ha b hb => ?_⟩
    cases hb
    exact late a ha

/-! ## What one move can do -/

/-- A move at an instant, from a status and a last change: to a classifier, with events. -/
inductive Moved (cfg : Config) (now : Nat) (status : Status) (last : Option Nat)
    (c : Classifier) (events : List Event) : Prop
  | none : accepted events = [] → c.status = status → c.lastChange = last →
      Moved cfg now status last c events
  | one (next : Status) :
      accepted events = [{ time := now, change := { previous := status, current := next } }] →
      c.status = next → c.lastChange = some now → next ≠ status → status ≠ .exited →
      (next = .idle → status = .active) → (∀ t ∈ last, cfg.debounce ≤ now - t) →
      Moved cfg now status last c events

/-- A change that is not debounced comes at least the debounce interval after the last. -/
theorem isDebounced_eq_false_iff {cfg : Config} {now : Nat} {c : Classifier} :
    c.isDebounced cfg now = false ↔ ∀ t ∈ c.lastChange, cfg.debounce ≤ now - t := by
  unfold isDebounced
  cases hlast : c.lastChange with
  | none => exact ⟨fun _ _ h => absurd h nofun, fun _ => rfl⟩
  | some t =>
    simp only [decide_eq_false_iff_not, Nat.not_lt, Option.mem_def, Option.some.injEq, forall_eq']

/-- The classifier may be of another look: a move speaks of what it accepts, and of two fields. -/
theorem Moved.congr {cfg : Config} {now : Nat} {status : Status} {last : Option Nat}
    {c c' : Classifier} {events events' : List Event} (h : Moved cfg now status last c events)
    (he : accepted events' = accepted events) (hs : c'.status = c.status)
    (hl : c'.lastChange = c.lastChange) : Moved cfg now status last c' events' := by
  cases h with
  | none hnone hstatus hlast => exact .none (he.trans hnone) (hs.trans hstatus) (hl.trans hlast)
  | one next hone hstatus hlast differs live fromActive late =>
    exact .one next (he.trans hone) (hs.trans hstatus) (hl.trans hlast) differs live fromActive late

theorem setStatus_moved (cfg : Config) (now : Nat) (next : Status) (c : Classifier)
    (fromActive : next = .idle → c.status = .active) :
    Moved cfg now c.status c.lastChange (setStatus cfg now next c).1
      (setStatus cfg now next c).2 := by
  unfold setStatus
  split
  next => exact .none rfl rfl rfl
  next hguard =>
    simp only [Bool.or_eq_true, decide_eq_true_eq, not_or] at hguard
    dsimp only
    split
    next => exact .none rfl rfl rfl
    next hd =>
      exact .one next rfl rfl rfl hguard.1 hguard.2 fromActive
        (isDebounced_eq_false_iff.mp (Bool.eq_false_iff.mpr hd))

/-- The setter leaves everything but the status and the last change alone. -/
theorem setStatus_frame (cfg : Config) (now : Nat) (next : Status) (c : Classifier) :
    ∃ status last, (setStatus cfg now next c).1 = { c with status, lastChange := last } := by
  unfold setStatus
  split
  · exact ⟨c.status, c.lastChange, rfl⟩
  · dsimp only
    split
    · exact ⟨c.status, c.lastChange, rfl⟩
    · exact ⟨next, some now, rfl⟩

/-- Output asks for a prompt's status or for an active one, never for any other. -/
theorem candidate_cases (cfg : Config) (window : Bytes) :
    candidate cfg window = .needsInput ∨ candidate cfg window = .active := by
  unfold candidate
  dsimp only
  split
  · exact .inl rfl
  · exact .inr rfl

theorem call_moved (cfg : Config) (now : Nat) (i : Call) (c : Classifier) :
    Moved cfg now c.status c.lastChange (call cfg now i c).1 (call cfg now i c).2 := by
  cases i with
  | output data =>
    simp only [call, output]
    split
    · exact .none rfl rfl rfl
    · refine setStatus_moved cfg now _ { c with
        window := tailWindow cfg.windowBytes (c.window ++ data)
        lastOutput := now
        deadline := now + cfg.idleTimeout } fun hidle => ?_
      rcases candidate_cases cfg (tailWindow cfg.windowBytes (c.window ++ data)) with h | h <;>
        cases h.symm.trans hidle
  | exit =>
    simp only [call, exit]
    split
    · exact .none rfl rfl rfl
    · exact setStatus_moved cfg now .exited c nofun
  | stop =>
    simp only [call, stop]
    split <;> exact .none rfl rfl rfl

theorem judge_moved (cfg : Config) (now : Nat) (c : Classifier) :
    Moved cfg now c.status c.lastChange (judge cfg now c).1 (judge cfg now c).2 := by
  unfold judge
  split
  next h =>
    simp only [Bool.and_eq_true, decide_eq_true_eq] at h
    exact (setStatus_moved cfg now .idle c fun _ => h.1).congr rfl rfl rfl
  next => exact .none rfl rfl rfl

theorem ring_moved (cfg : Config) (now : Nat) (c : Classifier) :
    Moved cfg now c.status c.lastChange (ring cfg now c).1 (ring cfg now c).2 := by
  unfold ring
  split
  · exact .none rfl rfl rfl
  · exact (judge_moved cfg now c).congr rfl rfl rfl

/-! ## What a run keeps -/

/-- The status and the last change are those of the changes accepted so far. -/
structure History (cfg : Config) (now : Nat) (c : Classifier) (past : List Event) : Prop where
  chain : Chain cfg.debounce (accepted past) c.status
  last : c.lastChange = (accepted past).getLast?.map (·.time)
  before : ∀ t ∈ c.lastChange, t ≤ now

/-- Time may pass. -/
theorem History.later {cfg : Config} {now later : Nat} {c : Classifier} {past : List Event}
    (h : History cfg now c past) (le : now ≤ later) : History cfg later c past :=
  ⟨h.chain, h.last, fun t ht => Nat.le_trans (h.before t ht) le⟩

/-- A move adds what it accepts. -/
theorem History.moved {cfg : Config} {now : Nat} {c c' : Classifier} {past events : List Event}
    (h : History cfg now c past) (hm : Moved cfg now c.status c.lastChange c' events) :
    History cfg now c' (past ++ events) := by
  cases hm with
  | none hnone hstatus hlast =>
    refine ⟨?_, ?_, ?_⟩
    · rw [accepted_append, hnone, List.append_nil, hstatus]
      exact h.chain
    · rw [accepted_append, hnone, List.append_nil, hlast]
      exact h.last
    · rw [hlast]
      exact h.before
  | one next hone hstatus hlast differs live fromActive late =>
    refine ⟨?_, ?_, ?_⟩
    · rw [accepted_append, hone, hstatus]
      refine h.chain.snoc now differs live fromActive fun a ha => ?_
      have ht : a.time ∈ c.lastChange := by rw [h.last, Option.mem_def.mp ha]; rfl
      have := late a.time ht
      have := h.before a.time ht
      omega
    · rw [accepted_append, hone, List.getLast?_concat, hlast]
      rfl
    · rw [hlast]
      intro t ht
      cases ht
      exact Nat.le_refl now

/-- The timer's next going off still lies ahead. -/
def Awake (now : Nat) (c : Classifier) : Prop := ∀ due ∈ alarm c, now < due

/-- A call may stop the timer; otherwise it leaves it as it is. -/
theorem call_alarm (cfg : Config) (now : Nat) (i : Call) (c : Classifier) :
    ∀ due ∈ alarm (call cfg now i c).1, due ∈ alarm c := by
  cases i with
  | output data =>
    simp only [call, output]
    split
    · exact fun _ h => h
    · obtain ⟨_, _, hframe⟩ := setStatus_frame cfg now
        (candidate cfg (tailWindow cfg.windowBytes (c.window ++ data)))
        { c with
          window := tailWindow cfg.windowBytes (c.window ++ data)
          lastOutput := now
          deadline := now + cfg.idleTimeout }
      rw [hframe]
      exact fun _ h => h
  | exit =>
    simp only [call, exit]
    split
    · exact fun _ h => h
    · obtain ⟨_, _, hframe⟩ := setStatus_frame cfg now .exited c
      rw [hframe]
      exact fun _ h => h
  | stop =>
    simp only [call, stop]
    split
    · exact fun _ h => h
    · intro due h
      simp only [alarm, if_true, Option.mem_def, reduceCtorEq] at h

theorem history_keeps (cfg : Config) (allowed : Call → Prop) :
    Stage.Keeps (component cfg) allowed fun now c past => History cfg now c past ∧ Awake now c where
  call _ h :=
    ⟨h.1.moved (call_moved cfg _ _ _), fun due hd => h.2 due (call_alarm cfg _ _ _ due hd)⟩
  ring hdue h :=
    ⟨(h.1.later (Nat.le_of_lt (h.2 _ hdue))).moved (ring_moved cfg _ _),
      fun _ hn => alarm_ring cfg hdue hn⟩
  wait le beyond h := ⟨h.1.later le, beyond⟩

/-- A classifier begun at an instant, with a worker for whom so many jobs may wait. -/
def opening (cfg : Config) (now capacity : Nat) : Stage Classifier Job :=
  { now, state := start cfg now, worker := { capacity } }

theorem start_history (cfg : Config) (now : Nat) :
    History cfg now (start cfg now) [] ∧ Awake now (start cfg now) := by
  refine ⟨⟨chain_nil cfg.debounce, rfl, nofun⟩, fun due h => ?_⟩
  cases h
  exact Nat.lt_add_of_pos_right cfg.idleTimeout_pos

/-- The status and the changes of a run agree. -/
theorem run_history (cfg : Config) (now capacity : Nat) (steps : List (Stage.Step Call)) :
    History cfg ((opening cfg now capacity).run (component cfg) steps).1.now
      ((opening cfg now capacity).run (component cfg) steps).1.state
      ((opening cfg now capacity).run (component cfg) steps).2 := by
  have h := (history_keeps cfg fun _ => True).run (s := opening cfg now capacity)
    (fun i (_ : .call i ∈ steps) => trivial) (start_history cfg now)
  exact h.1

/-! ## A stopped classifier -/

theorem call_of_stopped (cfg : Config) (now : Nat) (i : Call) {c : Classifier}
    (h : c.stopped = true) : call cfg now i c = (c, []) := by
  cases i <;> simp only [call, output, exit, stop, h, Bool.or_true, if_true]

/-- Nothing happens in a stopped classifier any more. -/
theorem frozen_of_stopped (cfg : Config) {c : Classifier} (h : c.stopped = true) :
    Stage.Frozen (component cfg) c where
  call now i := call_of_stopped cfg now i h
  alarm := if_pos h

/-- Stopping accepts nothing, and nothing is accepted afterwards. -/
theorem accepted_after_stop (cfg : Config) (s : Stage Classifier Job)
    (after : List (Stage.Step Call)) :
    accepted (s.run (component cfg) (.call .stop :: after)).2 = [] := by
  have hstop : accepted (stop s.state).2 = [] := by
    unfold stop
    split <;> rfl
  have hfrozen : Stage.Frozen (component cfg) (s.step (component cfg) (.call .stop)).1.state :=
    frozen_of_stopped cfg (stop_stopped s.state)
  simp only [Stage.run, (hfrozen.run after).2, List.append_nil]
  exact hstop

/-- **Accepted changes form a chain.** They lead from an active session to the current status, each
from where the last one led and to another status, at least the debounce interval apart; none leaves
an exited session, and only an active one falls idle. None is accepted once the classifier has been
stopped. The worker is given one notification for each, in order, and nothing else. -/
theorem accepted_chain (cfg : Config) (now capacity : Nat) (steps : List (Stage.Step Call)) :
    let ran := (opening cfg now capacity).run (component cfg) steps
    let notifications : List Job := (accepted ran.2).map fun a => .notify a.change
    Chain cfg.debounce (accepted ran.2) ran.1.state.status ∧
      (∀ before after, steps = before ++ .call .stop :: after →
        accepted ran.2 = accepted ((opening cfg now capacity).run (component cfg) before).2) ∧
      ran.2.filterMap Event.job? = notifications ∧
      ran.1.worker.Accounts notifications ∧
      (.hold ∉ steps → ran.1.worker.done = notifications) := by
  intro ran notifications
  have hjobs : ran.2.filterMap Event.job? = notifications := jobs_eq_notify ran.2
  refine ⟨(run_history cfg now capacity steps).chain, ?_, hjobs, ?_, fun never => ?_⟩
  · rintro before after rfl
    simp only [ran, Stage.run_append, accepted_append, accepted_after_stop, List.append_nil]
  · rw [← hjobs]
    exact Stage.run_accounts (component cfg) (s := opening cfg now capacity)
      (Worker.accounts_nil capacity) steps
  · rw [← hjobs]
    exact congrArg Worker.done
      (Stage.run_worker_of_free (component cfg) (s := opening cfg now capacity) rfl never rfl)

end TerminalSession.Classifier
