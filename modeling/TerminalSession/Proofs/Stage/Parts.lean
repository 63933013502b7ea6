import TerminalSession.Proofs.Stage.Run

/-!
# Runs seen from a part

A component that holds another as a part passes some of its calls on to it and keeps the others from
it. A run of the whole is then a run of the part, by the steps the part takes part in: at every
point they are at one instant, the part's state is what the whole shows of it, and the part's events
are those the whole shows (`Role.run`).

The whole submits the jobs of its other parts as well, all to one worker. As long as that worker and
the part's own drop none, they have done the same of the part's jobs (`Role.run_share`). Nothing is
said of workers who drop jobs, since one may drop what the other has room for.
-/

set_option autoImplicit false

namespace TerminalSession.Stage

variable {σ ι ε κ σ' ι' ε' κ' : Type}

/-- A part whose calls are among those of the whole: `pass?` says what the part is told. -/
structure Role (c : Component σ ι ε κ) (p : Component σ' ι' ε' κ') (view : σ → σ')
    (seen? : ε → Option ε') (pass? : ι → Option ι') : Prop extends c.Part p view seen? where
  passed : ∀ {i : ι} {j : ι'}, pass? i = some j → ∀ (now : Nat) (s : σ),
    (view (c.call now i s).1, (c.call now i s).2.filterMap seen?) = p.call now j (view s)
  kept : ∀ {i : ι}, pass? i = none → ∀ (now : Nat) (s : σ),
    (view (c.call now i s).1, (c.call now i s).2.filterMap seen?) = (view s, [])

/-- The part's share in a step. -/
def Step.pass? (pass? : ι → Option ι') : Step ι → Option (Step ι')
  | .call i => (pass? i).map .call
  | .sleep ms => some (.sleep ms)
  | .hold => some .hold
  | .release => some .release

/-- A stage of the part shows what a stage of the whole shows of it. -/
structure Shows (view : σ → σ') (s : Stage σ κ) (t : Stage σ' κ') : Prop where
  now : t.now = s.now
  state : t.state = view s.state

variable {c : Component σ ι ε κ} {p : Component σ' ι' ε' κ'} {view : σ → σ'}
  {seen? : ε → Option ε'} {pass? : ι → Option ι'}

/-- A step that the part has a share in. -/
theorem Role.step (role : Role c p view seen? pass?) {s : Stage σ κ} {t : Stage σ' κ'}
    (h : Shows view s t) {step : Step ι} {share : Step ι'}
    (hshare : step.pass? pass? = some share) :
    Shows view (s.step c step).1 (t.step p share).1 ∧
      (t.step p share).2 = (s.step c step).2.filterMap seen? := by
  obtain ⟨hnow, hstate⟩ := h
  cases step with
  | call i =>
    obtain ⟨j, hj, rfl⟩ := Option.map_eq_some_iff.mp hshare
    have hcall := role.passed hj s.now s.state
    rw [← hstate, ← hnow] at hcall
    refine ⟨⟨hnow, ?_⟩, ?_⟩
    · exact (congrArg Prod.fst hcall).symm.trans (by rw [hnow]; rfl)
    · exact (congrArg Prod.snd hcall).symm.trans (by rw [hnow]; rfl)
  | sleep ms =>
    cases hshare
    have htime := role.toPart.elapse (s.now + ms) s.state
    rw [← hstate, ← hnow] at htime
    refine ⟨⟨congrArg (· + ms) hnow, ?_⟩, ?_⟩
    · exact (congrArg Prod.fst htime).trans (by rw [hnow]; rfl)
    · exact (congrArg Prod.snd htime).trans (by rw [hnow]; rfl)
  | hold =>
    cases hshare
    exact ⟨⟨hnow, hstate⟩, rfl⟩
  | release =>
    cases hshare
    exact ⟨⟨hnow, hstate⟩, rfl⟩

/-- A step that is kept from the part. -/
theorem Role.step_none (role : Role c p view seen? pass?) {s : Stage σ κ} {t : Stage σ' κ'}
    (h : Shows view s t) {step : Step ι} (hshare : step.pass? pass? = none) :
    Shows view (s.step c step).1 t ∧ (s.step c step).2.filterMap seen? = [] := by
  cases step with
  | call i =>
    have hcall := role.kept (Option.map_eq_none_iff.mp hshare) s.now s.state
    exact ⟨⟨h.now, h.state.trans (congrArg Prod.fst hcall).symm⟩, congrArg Prod.snd hcall⟩
  | sleep ms => cases hshare
  | hold => cases hshare
  | release => cases hshare

/-- **A run of the whole is a run of the part**, by the part's share in the steps. -/
theorem Role.run (role : Role c p view seen? pass?) {s : Stage σ κ} {t : Stage σ' κ'}
    (h : Shows view s t) (steps : List (Step ι)) :
    Shows view (s.run c steps).1 (t.run p (steps.filterMap (Step.pass? pass?))).1 ∧
      (t.run p (steps.filterMap (Step.pass? pass?))).2 = (s.run c steps).2.filterMap seen? := by
  induction steps generalizing s t with
  | nil => exact ⟨h, rfl⟩
  | cons step steps ih =>
    cases hshare : step.pass? pass? with
    | none =>
      obtain ⟨hshows, hevents⟩ := role.step_none h hshare
      obtain ⟨hrest, hmore⟩ := ih hshows
      rw [List.filterMap_cons_none hshare]
      refine ⟨hrest, ?_⟩
      rw [hmore, Stage.run, List.filterMap_append, hevents, List.nil_append]
    | some share =>
      obtain ⟨hshows, hevents⟩ := role.step h hshare
      obtain ⟨hrest, hmore⟩ := ih hshows
      rw [List.filterMap_cons_some hshare]
      refine ⟨hrest, ?_⟩
      rw [Stage.run, Stage.run, List.filterMap_append, hevents, hmore]

/-! ## The jobs of a part -/

theorem dropped_le_step (c : Component σ ι ε κ) (s : Stage σ κ) (step : Step ι) :
    s.worker.dropped ≤ (s.step c step).1.worker.dropped := by
  cases step with
  | call i => exact s.worker.dropped_le_submitAll _
  | sleep ms => exact s.worker.dropped_le_submitAll _
  | hold => exact Nat.le_refl _
  | release => exact Nat.le_refl _

theorem dropped_le_run (c : Component σ ι ε κ) (s : Stage σ κ) (steps : List (Step ι)) :
    s.worker.dropped ≤ (s.run c steps).1.worker.dropped := by
  induction steps generalizing s with
  | nil => exact Nat.le_refl _
  | cons step steps ih => exact Nat.le_trans (dropped_le_step c s step) (ih (s.step c step).1)

variable {p : Component σ' ι' ε' κ} {mine : κ → Bool}

/-- The part's share of the jobs are those of the events it sees. -/
theorem filter_jobs (hjobs : ∀ e, (c.job? e).filter mine = (seen? e).bind p.job?)
    (events : List ε) :
    (events.filterMap c.job?).filter mine = (events.filterMap seen?).filterMap p.job? := by
  rw [List.filter_filterMap, List.filterMap_filterMap]
  congr 1
  funext e
  exact hjobs e

/-- A step that drops nothing leaves the part's worker with its share. -/
theorem Role.step_share (role : Role c p view seen? pass?)
    (hjobs : ∀ e, (c.job? e).filter mine = (seen? e).bind p.job?) {s : Stage σ κ} {t : Stage σ' κ}
    (h : Shows view s t) (hw : s.worker.Share mine t.worker) {step : Step ι} {share : Step ι'}
    (hshare : step.pass? pass? = some share)
    (hs : (s.step c step).1.worker.dropped = s.worker.dropped)
    (ht : (t.step p share).1.worker.dropped = t.worker.dropped) :
    (s.step c step).1.worker.Share mine (t.step p share).1.worker := by
  have hevents := (role.step h hshare).2
  cases step with
  | call i =>
    obtain ⟨j, -, rfl⟩ := Option.map_eq_some_iff.mp hshare
    simp only [Stage.step, after] at hevents hs ht ⊢
    rw [hevents, ← filter_jobs hjobs] at ht ⊢
    exact hw.submitAll hs ht
  | sleep ms =>
    cases hshare
    simp only [Stage.step, after] at hevents hs ht ⊢
    rw [hevents, ← filter_jobs hjobs] at ht ⊢
    exact hw.submitAll hs ht
  | hold =>
    cases hshare
    exact hw.hold
  | release =>
    cases hshare
    exact hw.release

/-- And so does a step that is kept from the part. -/
theorem Role.step_share_none (role : Role c p view seen? pass?)
    (hjobs : ∀ e, (c.job? e).filter mine = (seen? e).bind p.job?) {s : Stage σ κ} {t : Stage σ' κ}
    (h : Shows view s t) (hw : s.worker.Share mine t.worker) {step : Step ι}
    (hshare : step.pass? pass? = none)
    (hs : (s.step c step).1.worker.dropped = s.worker.dropped) :
    (s.step c step).1.worker.Share mine t.worker := by
  have hevents := (role.step_none h hshare).2
  cases step with
  | call i =>
    have hnone := filter_jobs hjobs (c.call s.now i s.state).2
    simp only [Stage.step, after] at hevents hs ⊢
    rw [hevents] at hnone
    have hmore := hw.submitAll hs (by rw [hnone]; rfl)
    rw [hnone] at hmore
    exact hmore
  | sleep ms => cases hshare
  | hold => cases hshare
  | release => cases hshare

/-- **Of the part's jobs a shared worker does what the part's own does**, if neither drops any. -/
theorem Role.run_share (role : Role c p view seen? pass?)
    (hjobs : ∀ e, (c.job? e).filter mine = (seen? e).bind p.job?) {s : Stage σ κ} {t : Stage σ' κ}
    (h : Shows view s t) (hw : s.worker.Share mine t.worker) (steps : List (Step ι))
    (hs : (s.run c steps).1.worker.dropped = s.worker.dropped)
    (ht : (t.run p (steps.filterMap (Step.pass? pass?))).1.worker.dropped = t.worker.dropped) :
    (s.run c steps).1.worker.Share mine
      (t.run p (steps.filterMap (Step.pass? pass?))).1.worker := by
  induction steps generalizing s t with
  | nil => exact hw
  | cons step steps ih =>
    -- Nothing is dropped in the whole run, so neither in its first step nor in the others.
    have hfirst := dropped_le_step c s step
    have hrest := dropped_le_run c (s.step c step).1 steps
    have hkept : (s.step c step).1.worker.dropped = s.worker.dropped :=
      Nat.le_antisymm (Nat.le_trans hrest (Nat.le_of_eq hs)) hfirst
    cases hshare : step.pass? pass? with
    | none =>
      rw [List.filterMap_cons_none hshare] at ht ⊢
      exact ih (role.step_none h hshare).1 (role.step_share_none hjobs h hw hshare hkept)
        (hs.trans hkept.symm) ht
    | some share =>
      rw [List.filterMap_cons_some hshare] at ht ⊢
      have hfirst' := dropped_le_step p t share
      have hrest' := dropped_le_run p (t.step p share).1 (steps.filterMap (Step.pass? pass?))
      have hkept' : (t.step p share).1.worker.dropped = t.worker.dropped :=
        Nat.le_antisymm (Nat.le_trans hrest' (Nat.le_of_eq ht)) hfirst'
      exact ih (role.step h hshare).1 (role.step_share hjobs h hw hshare hkept hkept')
        (hs.trans hkept.symm) (ht.trans hkept'.symm)

end TerminalSession.Stage
