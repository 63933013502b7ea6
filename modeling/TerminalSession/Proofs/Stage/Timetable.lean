import TerminalSession.Proofs.Stage.Moment
import TerminalSession.Proofs.Stage.Parts

/-!
# Runs by the clock

Only waits take time, and a wait that is cut in two lets the same alarms ring at the same instants
(`run_waits`). So it does not matter of which waits the time between two other steps is made up: a
run is that of its timetable, which says what is done at which instant, with one wait before each of
these deeds and one at the end (`run_eq_paced`). Two runs of one timetable that end at one instant
are the same run, with the same events and the same jobs done (`ByClock`).

That a wait of no length is no step takes more: every alarm that was due has to have rung. It is so
as long as no call sets a timer for an instant that has come (`SetsAhead`); what rings sets none,
by the law of components.
-/

set_option autoImplicit false

namespace TerminalSession.Stage

variable {σ ι ε κ : Type}

/-! ## Timetables -/

/-- How long steps take together. -/
def duration : List (Step ι) → Nat
  | [] => 0
  | step :: rest => step.duration + duration rest

/-- What is done besides waiting, each deed with its instant. -/
def timetable : (now : Nat) → List (Step ι) → List (Nat × Step ι)
  | _, [] => []
  | now, .sleep ms :: rest => timetable (now + ms) rest
  | now, .call i :: rest => (now, .call i) :: timetable now rest
  | now, .hold :: rest => (now, .hold) :: timetable now rest
  | now, .release :: rest => (now, .release) :: timetable now rest

/-- The steps that keep to a timetable and end at an instant, with one wait before each deed and one
after them all. -/
def paced : (now : Nat) → List (Nat × Step ι) → (target : Nat) → List (Step ι)
  | now, [], target => [.sleep (target - now)]
  | now, (instant, deed) :: rest, target =>
    .sleep (instant - now) :: deed :: paced instant rest target

/-- Nothing is done before the run begins. -/
theorem le_of_mem_timetable {now : Nat} {steps : List (Step ι)} {deed : Nat × Step ι}
    (h : deed ∈ timetable now steps) : now ≤ deed.1 := by
  induction steps generalizing now with
  | nil => cases h
  | cons step steps ih =>
    cases step with
    | sleep ms => exact Nat.le_trans (Nat.le_add_right now ms) (ih h)
    | _ =>
      rcases List.mem_cons.mp h with rfl | h
      · exact Nat.le_refl _
      · exact ih h

/-! ## Waits -/

variable (c : Component σ ι ε κ)

/-- **Two waits are one wait.** -/
theorem run_waits (s : Stage σ κ) (a b : Nat) (rest : List (Step ι)) :
    s.run c (.sleep a :: .sleep b :: rest) = s.run c (.sleep (a + b) :: rest) := by
  have hmiddle : s.now + a ≤ s.now + a + b := Nat.le_add_right _ _
  have hsplit := c.elapse_split hmiddle s.state
  have hstep : s.step c (.sleep (a + b)) =
      (((s.step c (.sleep a)).1.step c (.sleep b)).1,
        (s.step c (.sleep a)).2 ++ ((s.step c (.sleep a)).1.step c (.sleep b)).2) := by
    simp only [step, after, ← Nat.add_assoc, hsplit, List.filterMap_append, Worker.submitAll,
      List.foldl_append]
  simp only [run, hstep, List.append_assoc]

/-- No alarm is left that was due. -/
def Settled (s : Stage σ κ) : Prop := ∀ due ∈ c.alarm s.state, s.now < due

/-- Calls set no timer for an instant that has come. -/
def SetsAhead : Prop :=
  ∀ (now : Nat) (i : ι) (s : σ), (∀ due ∈ c.alarm s, now < due) →
    ∀ due ∈ c.alarm (c.call now i s).1, now < due

variable {c}

/-- A wait of no length is no step. -/
theorem Settled.run_sleep_zero {s : Stage σ κ} (h : Settled c s) (rest : List (Step ι)) :
    s.run c (.sleep 0 :: rest) = s.run c rest := by
  have hnone : c.elapse s.now s.state = (s.state, []) := Component.elapse_of_lt h
  have hstep : s.step c (.sleep 0) = (s, []) := by
    simp only [step, after, Nat.add_zero, hnone, List.filterMap_nil, Worker.submitAll,
      List.foldl_nil]
  simp only [run, hstep, List.nil_append]

theorem SetsAhead.keeps (h : SetsAhead c) :
    Keeps c (fun _ => True) fun now s _ => ∀ due ∈ c.alarm s, now < due where
  call _ hs := h _ _ _ hs
  ring hdue _ := fun _ hnext => c.alarm_ring hdue hnext
  wait _ beyond _ := beyond

theorem SetsAhead.step (h : SetsAhead c) {s : Stage σ κ} (hs : Settled c s) (step : Step ι) :
    Settled c (s.step c step).1 := by
  have hrun : Settled c (s.run c [step]).1 := h.keeps.run_nil (fun _ _ => trivial) hs
  exact hrun

/-- What a call of the whole leaves to a part is not due either: the whole has an alarm no later than
the part's, and a part that is not told of the call keeps the timer it had. -/
theorem Role.ahead {σ' ι' ε' κ' : Type} {p : Component σ' ι' ε' κ'} {view : σ → σ'}
    {seen? : ε → Option ε'} {pass? : ι → Option ι'} (role : Role c p view seen? pass?)
    (h : SetsAhead p) {now : Nat} {s : σ} (ahead : ∀ due ∈ c.alarm s, now < due) (i : ι) :
    ∀ due ∈ p.alarm (view (c.call now i s).1), now < due := by
  have hpart : ∀ due ∈ p.alarm (view s), now < due := by
    intro due hdue
    obtain ⟨n, hle, hn⟩ := role.first hdue
    exact Nat.lt_of_lt_of_le (ahead n hn) hle
  cases hpass : pass? i with
  | none =>
    have hkept : view (c.call now i s).1 = view s := congrArg Prod.fst (role.kept hpass now s)
    rwa [hkept]
  | some j =>
    have hpassed : view (c.call now i s).1 = (p.call now j (view s)).1 :=
      congrArg Prod.fst (role.passed hpass now s)
    rw [hpassed]
    exact h now j (view s) hpart

/-! ## Runs with one timetable -/

/-- A wait ahead of paced steps is part of the first of their waits. -/
theorem run_sleep_paced {s : Stage σ κ} {ms target : Nat} {deeds : List (Nat × Step ι)}
    (hdeeds : ∀ deed ∈ deeds, s.now + ms ≤ deed.1) (htarget : s.now + ms ≤ target) :
    s.run c (.sleep ms :: paced (s.now + ms) deeds target) =
      s.run c (paced s.now deeds target) := by
  cases deeds with
  | nil =>
    have hlength : ms + (target - (s.now + ms)) = target - s.now := by omega
    rw [paced, paced, run_waits, hlength]
  | cons deed deeds =>
    have hfirst : s.now + ms ≤ deed.1 := hdeeds deed List.mem_cons_self
    have hlength : ms + (deed.1 - (s.now + ms)) = deed.1 - s.now := by omega
    rw [paced, paced, run_waits, hlength]

/-- **A run is that of its timetable.** -/
theorem run_eq_paced (h : SetsAhead c) {s : Stage σ κ} (hs : Settled c s)
    (steps : List (Step ι)) :
    s.run c steps = s.run c (paced s.now (timetable s.now steps) (s.now + duration steps)) := by
  induction steps generalizing s with
  | nil =>
    have hlength : s.now + duration ([] : List (Step ι)) - s.now = 0 := Nat.add_sub_cancel_left _ _
    rw [timetable, paced, hlength, hs.run_sleep_zero]
  | cons step steps ih =>
    -- What follows the first step is paced from the instant it leads to.
    have hrest := ih (h.step hs step)
    rw [step_now] at hrest
    have hpaced (deed : Step ι) (rest : List (Step ι)) :
        s.run c (deed :: rest) = s.run c (.sleep (s.now - s.now) :: deed :: rest) := by
      rw [Nat.sub_self, hs.run_sleep_zero]
    have hcons : s.run c (step :: steps) =
        s.run c (step :: paced (s.now + step.duration)
          (timetable (s.now + step.duration) steps)
          (s.now + step.duration + duration steps)) := by
      rw [run, run, hrest]
    rw [hcons, duration, ← Nat.add_assoc]
    cases step with
    | sleep ms =>
      exact run_sleep_paced (fun _ hdeed => le_of_mem_timetable hdeed) (Nat.le_add_right _ _)
    | call i => exact hpaced _ _
    | hold => exact hpaced _ _
    | release => exact hpaced _ _

/-- A component at work from a stage on goes by the clock. -/
structure ByClock (c : Component σ ι ε κ) (s : Stage σ κ) : Prop where
  /-- Wherever a run has got, two waits lead to the stage that one wait leads to, and the same
  happens in them. -/
  waits : ∀ (steps : List (Step ι)) (a b : Nat),
    s.run c (steps ++ [.sleep a, .sleep b]) = s.run c (steps ++ [.sleep (a + b)])
  /-- Two runs that do the same at the same instants and end at one instant are the same. -/
  deeds : ∀ steps steps' : List (Step ι), timetable s.now steps = timetable s.now steps' →
    duration steps = duration steps' → s.run c steps = s.run c steps'

/-- **Only what is done when matters**, for a component whose timers are set ahead. -/
theorem byClock (h : SetsAhead c) {s : Stage σ κ} (hs : Settled c s) : ByClock c s where
  waits steps a b := by rw [run_append, run_append, run_waits]
  deeds steps steps' htimetable hduration := by
    rw [run_eq_paced h hs steps, run_eq_paced h hs steps', htimetable, hduration]

end TerminalSession.Stage
