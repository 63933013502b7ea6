import TerminalSession.Component

/-!
# How time passes for a component

`Component.elapse` rings every alarm that is due by an instant. `Passes` says the same as a
relation, with one rule for a component whose next alarm lies beyond the instant and one for an
alarm that rings, so that a law about any length of time is an induction over the rings in it.
`elapse_passes` and `Passes.elapse_eq` tie the two together. Time that passes may be looked at on the
way: a long wait is two shorter ones (`elapse_split`).

A component may hold another as a *part*: its state shows a state of the part, some of its events
are events of the part, and its alarm is never later than the part's. `Part.elapse` then lets time
pass for the part by letting it pass for the whole, whatever else rings in between.

## What this does NOT decide

Nothing here says what a ring does, and nothing speaks of calls: what a call of the whole means for
a part is up to each pair of components.
-/

set_option autoImplicit false

namespace TerminalSession.Component

variable {σ ι ε κ : Type}

/-- Time passes for a component up to an instant: from a state, with some events, to a state. -/
inductive Passes (c : Component σ ι ε κ) (target : Nat) : σ → List ε → σ → Prop
  | rest {s : σ} : (∀ due ∈ c.alarm s, target < due) → Passes c target s [] s
  | ring {s t : σ} {due : Nat} {events : List ε} : c.alarm s = some due → due ≤ target →
      Passes c target (c.ring due s).1 events t →
      Passes c target s ((c.ring due s).2 ++ events) t

/-- Letting time pass only adds to the events there were, and adds what `Passes` allows. -/
theorem elapseAfter_passes (c : Component σ ι ε κ) (target : Nat) (s : σ) (events : List ε) :
    ∃ more, (c.elapseAfter target s events).2 = events ++ more ∧
      c.Passes target s more (c.elapseAfter target s events).1 := by
  rw [elapseAfter]
  split
  next h => exact ⟨[], (List.append_nil _).symm, .rest (by rw [h]; intro _ hn; cases hn)⟩
  next due h =>
    by_cases le : due ≤ target
    · obtain ⟨more, heq, hp⟩ := elapseAfter_passes c target (c.ring due s).1
        (events ++ (c.ring due s).2)
      refine ⟨(c.ring due s).2 ++ more, ?_, ?_⟩
      · simp only [dif_pos le, heq, List.append_assoc]
      · simpa only [dif_pos le] using Passes.ring h le hp
    · refine ⟨[], ?_, ?_⟩
      · simp only [dif_neg le, List.append_nil]
      · simp only [dif_neg le]
        refine .rest fun next hn => ?_
        cases h.symm.trans hn
        exact Nat.lt_of_not_le le
termination_by c.remaining target s
decreasing_by exact c.remaining_ring ‹_› ‹_›

/-- The computation keeps to the relation. -/
theorem elapse_passes (c : Component σ ι ε κ) (target : Nat) (s : σ) :
    c.Passes target s (c.elapse target s).2 (c.elapse target s).1 := by
  obtain ⟨more, heq, hp⟩ := c.elapseAfter_passes target s []
  rw [elapse, heq]
  exact hp

/-- There is one way for time to pass. -/
theorem Passes.unique {c : Component σ ι ε κ} {target : Nat} {s t t' : σ} {events events' : List ε}
    (h : c.Passes target s events t) (h' : c.Passes target s events' t') :
    t = t' ∧ events = events' := by
  induction h generalizing t' events' with
  | rest beyond =>
    cases h' with
    | rest _ => exact ⟨rfl, rfl⟩
    | ring due le _ => exact absurd (beyond _ due) (Nat.not_lt.mpr le)
  | ring due le _ ih =>
    cases h' with
    | rest beyond => exact absurd (beyond _ due) (Nat.not_lt.mpr le)
    | ring due' _ hp =>
      cases due.symm.trans due'
      obtain ⟨rfl, rfl⟩ := ih hp
      exact ⟨rfl, rfl⟩

/-- And the relation determines the computation. -/
theorem Passes.elapse_eq {c : Component σ ι ε κ} {target : Nat} {s t : σ} {events : List ε}
    (h : c.Passes target s events t) : c.elapse target s = (t, events) := by
  obtain ⟨ht, he⟩ := (c.elapse_passes target s).unique h
  exact Prod.ext ht he

/-- No alarm is left that is due. -/
theorem Passes.beyond {c : Component σ ι ε κ} {target : Nat} {s t : σ} {events : List ε}
    (h : c.Passes target s events t) : ∀ due ∈ c.alarm t, target < due := by
  induction h with
  | rest beyond => exact beyond
  | ring _ _ _ ih => exact ih

/-- Nothing happens before the next alarm. -/
theorem elapse_of_lt {c : Component σ ι ε κ} {target : Nat} {s : σ}
    (h : ∀ due ∈ c.alarm s, target < due) : c.elapse target s = (s, []) :=
  (Passes.rest h).elapse_eq

/-- What every ring leaves alone is left alone while time passes. -/
theorem elapse_view {α : Type} {c : Component σ ι ε κ} {view : σ → α}
    (h : ∀ (now : Nat) (s : σ), view (c.ring now s).1 = view s) (target : Nat) (s : σ) :
    view (c.elapse target s).1 = view s := by
  generalize (c.elapse target s).1 = t, (c.elapse target s).2 = events, c.elapse_passes target s = hp
  induction hp with
  | rest _ => rfl
  | @ring s t due events _ _ _ ih => exact ih.trans (h due s)

/-- A long wait is two shorter ones: the alarms due by an instant on the way ring first. -/
theorem Passes.split {c : Component σ ι ε κ} {middle target : Nat} {s t : σ} {events : List ε}
    (h : c.Passes target s events t) (le : middle ≤ target) :
    ∃ m first second, c.Passes middle s first m ∧ c.Passes target m second t ∧
      events = first ++ second := by
  induction h with
  | @rest s beyond =>
    exact ⟨s, [], [], .rest fun due hd => Nat.lt_of_le_of_lt le (beyond due hd), .rest beyond, rfl⟩
  | @ring s t due events hdue hle hp ih =>
    by_cases hmiddle : due ≤ middle
    · obtain ⟨m, first, second, hfirst, hsecond, rfl⟩ := ih
      exact ⟨m, _, second, .ring hdue hmiddle hfirst, hsecond, (List.append_assoc ..).symm⟩
    · refine ⟨s, [], _, .rest fun due' hd => ?_, .ring hdue hle hp, rfl⟩
      cases hdue.symm.trans hd
      exact Nat.lt_of_not_le hmiddle

/-- Time that has passed up to an instant passes on from there. -/
theorem elapse_split (c : Component σ ι ε κ) {middle target : Nat} (le : middle ≤ target) (s : σ) :
    c.elapse target s =
      ((c.elapse target (c.elapse middle s).1).1,
        (c.elapse middle s).2 ++ (c.elapse target (c.elapse middle s).1).2) := by
  obtain ⟨m, first, second, hfirst, hsecond, hevents⟩ := (c.elapse_passes target s).split le
  rw [hfirst.elapse_eq, hsecond.elapse_eq]
  exact Prod.ext rfl hevents

/-- An alarm that is all there is up to an instant. -/
theorem elapse_of_ring {c : Component σ ι ε κ} {due : Nat} {s : σ} (h : c.alarm s = some due) :
    c.elapse due s = c.ring due s := by
  have hp : c.Passes due s ((c.ring due s).2 ++ []) (c.ring due s).1 :=
    .ring h (Nat.le_refl due) (.rest fun _ hn => c.alarm_ring h hn)
  rw [hp.elapse_eq, List.append_nil]

/-! ## Parts of a component -/

/-- A component holds another: `view` shows the part's state, and `seen?` picks out its events. -/
structure Part {σ' ι' ε' κ' : Type} (c : Component σ ι ε κ) (p : Component σ' ι' ε' κ')
    (view : σ → σ') (seen? : ε → Option ε') : Prop where
  /-- The whole has an alarm no later than the part's. -/
  first : ∀ {s : σ} {due : Nat}, p.alarm (view s) = some due → ∃ n ≤ due, c.alarm s = some n
  /-- A ring of the whole rings the part if the part's alarm is due, and else leaves it alone. -/
  ring : ∀ {s : σ} {now : Nat}, c.alarm s = some now →
    (view (c.ring now s).1, (c.ring now s).2.filterMap seen?) =
      if p.alarm (view s) = some now then p.ring now (view s) else (view s, [])

/-- Time passes for the part as it passes for the whole. -/
theorem Part.elapse {σ' ι' ε' κ' : Type} {c : Component σ ι ε κ} {p : Component σ' ι' ε' κ'}
    {view : σ → σ'} {seen? : ε → Option ε'} (part : c.Part p view seen?) (target : Nat) (s : σ) :
    p.elapse target (view s) =
      (view (c.elapse target s).1, (c.elapse target s).2.filterMap seen?) := by
  refine Passes.elapse_eq ?_
  generalize (c.elapse target s).1 = t, (c.elapse target s).2 = events, c.elapse_passes target s = h
  induction h with
  | rest beyond =>
    refine .rest fun due hd => ?_
    obtain ⟨n, le, hn⟩ := part.first hd
    exact Nat.lt_of_lt_of_le (beyond n hn) le
  | @ring s t due events hdue le _ ih =>
    have hring := part.ring hdue
    rw [List.filterMap_append]
    by_cases h : p.alarm (view s) = some due
    · rw [if_pos h] at hring
      have hs := congrArg Prod.fst hring
      have he := congrArg Prod.snd hring
      simp only at hs he
      rw [he]
      exact .ring h le (hs ▸ ih)
    · rw [if_neg h] at hring
      have hs := congrArg Prod.fst hring
      have he := congrArg Prod.snd hring
      simp only at hs he
      rw [he, List.nil_append]
      exact hs ▸ ih

end TerminalSession.Component
