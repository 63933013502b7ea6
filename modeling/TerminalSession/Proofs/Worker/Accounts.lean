import TerminalSession.Worker

/-!
# What becomes of the jobs a worker is given

`Worker.Accounts w jobs` says that `w` has been given exactly these jobs, one after the other: those
done, followed by those that still wait, are a part of them in the same order, and the ones that
lack were counted as they were dropped. Each operation of a worker keeps its accounts
(`Accounts.submitAll`, `Accounts.hold`, `Accounts.release`). A worker who has dropped nothing has
lost nothing (`Accounts.kept_eq`), and one who is never held up does each job as it comes
(`submitAll_of_free`).

`Worker.Share mine w v` compares two workers: `v` has done, and keeps in its queue, those jobs of
`w` that are `mine`. As long as neither drops a job, `v` goes on to do so if it is given its share
of what `w` is given (`Share.submitAll`).
-/

set_option autoImplicit false

namespace TerminalSession.Worker

variable {κ : Type}

/-- A worker has been given these jobs. -/
structure Accounts (w : Worker κ) (jobs : List κ) : Prop where
  kept : (w.done ++ w.queue).Sublist jobs
  counted : (w.done ++ w.queue).length + w.dropped = jobs.length
  /-- Only a job that holds the worker up makes others wait. -/
  waiting : w.held = false → w.queue = []

/-- A worker who has done nothing yet has been given nothing. -/
theorem accounts_nil (capacity : Nat) : Accounts { capacity : Worker κ } [] :=
  ⟨.slnil, rfl, fun _ => rfl⟩

/-- The three things that can become of a job: it is done, it waits, or it is dropped. -/
theorem submit_cases (w : Worker κ) (job : κ) :
    (w.held = false ∧ w.accepts = true ∧ w.submit job = { w with done := w.done ++ [job] }) ∨
      (w.held = true ∧ w.accepts = true ∧ w.queue.length < w.capacity ∧
        w.submit job = { w with queue := w.queue ++ [job] }) ∨
      (w.held = true ∧ w.accepts = false ∧ w.capacity ≤ w.queue.length ∧
        w.submit job = { w with dropped := w.dropped + 1 }) := by
  cases hheld : w.held with
  | false => exact .inl ⟨rfl, by simp [accepts, hheld], by simp [submit, hheld]⟩
  | true =>
    by_cases hroom : w.queue.length < w.capacity
    · exact .inr (.inl ⟨rfl, by simp [accepts, hroom], hroom, by simp [submit, hheld, hroom]⟩)
    · exact .inr (.inr ⟨rfl, by simp [accepts, hheld, hroom], by omega,
        by simp [submit, hheld, hroom]⟩)

theorem Accounts.submit {w : Worker κ} {jobs : List κ} (h : w.Accounts jobs) (job : κ) :
    (w.submit job).Accounts (jobs ++ [job]) := by
  obtain ⟨hkept, hcount, hwait⟩ := h
  obtain ⟨hfree, -, heq⟩ | ⟨hheld, -, -, heq⟩ | ⟨-, -, -, heq⟩ := w.submit_cases job
  · have hq : w.queue = [] := hwait hfree
    rw [hq, List.append_nil] at hkept hcount
    rw [heq]
    refine ⟨?_, ?_, fun _ => hq⟩
    · simpa only [hq, List.append_nil] using hkept.append (.refl [job])
    · simp only [hq, List.append_nil, List.length_append, List.length_singleton]
      omega
  · rw [heq]
    refine ⟨?_, ?_, fun hfree => Bool.noConfusion (hheld.symm.trans hfree)⟩
    · simpa only [List.append_assoc] using hkept.append (.refl [job])
    · simp only [← List.append_assoc, List.length_append, List.length_singleton] at hcount ⊢
      omega
  · rw [heq]
    refine ⟨hkept.trans (List.sublist_append_left _ _), ?_, hwait⟩
    simp only [List.length_append, List.length_singleton] at hcount ⊢
    omega

theorem submitAll_cons (w : Worker κ) (job : κ) (jobs : List κ) :
    w.submitAll (job :: jobs) = (w.submit job).submitAll jobs := rfl

theorem Accounts.submitAll {w : Worker κ} {jobs : List κ} (h : w.Accounts jobs) (more : List κ) :
    (w.submitAll more).Accounts (jobs ++ more) := by
  induction more generalizing w jobs with
  | nil => simpa only [Worker.submitAll, List.foldl_nil, List.append_nil] using h
  | cons job more ih =>
    simpa only [submitAll_cons, List.append_assoc, List.singleton_append] using ih (h.submit job)

theorem Accounts.hold {w : Worker κ} {jobs : List κ} (h : w.Accounts jobs) :
    w.hold.Accounts jobs :=
  ⟨h.kept, h.counted, fun hf => Bool.noConfusion hf⟩

theorem Accounts.release {w : Worker κ} {jobs : List κ} (h : w.Accounts jobs) :
    w.release.Accounts jobs := by
  refine ⟨?_, ?_, fun _ => rfl⟩
  · simpa only [Worker.release, List.append_nil] using h.kept
  · simpa only [Worker.release, List.append_nil] using h.counted

/-- A worker who has dropped nothing has done, or has still to do, every job in order. -/
theorem Accounts.kept_eq {w : Worker κ} {jobs : List κ} (h : w.Accounts jobs)
    (hd : w.dropped = 0) : w.done ++ w.queue = jobs :=
  h.kept.eq_of_length (by simpa only [hd, Nat.add_zero] using h.counted)

/-- A worker who is free does each job as it comes, and drops none. -/
theorem submitAll_of_free {w : Worker κ} (h : w.held = false) (jobs : List κ) :
    w.submitAll jobs = { w with done := w.done ++ jobs } := by
  induction jobs generalizing w with
  | nil => simp only [submitAll, List.foldl_nil, List.append_nil]
  | cons job jobs ih =>
    have hs : w.submit job = { w with done := w.done ++ [job] } := by
      simp only [submit, h, Bool.not_false, if_true]
    have hfree : (w.submit job).held = false := by rw [hs]; exact h
    rw [submitAll_cons, ih hfree, hs]
    simp only [List.append_assoc, List.singleton_append]

/-- Releasing a worker who is free changes nothing. -/
theorem release_of_free {w : Worker κ} (h : w.held = false) (hq : w.queue = []) :
    w.release = w := by
  obtain ⟨capacity, held, queue, done, dropped⟩ := w
  cases h
  cases hq
  simp only [release, List.append_nil]

/-! ## A share of the jobs -/

theorem dropped_le_submit (w : Worker κ) (job : κ) : w.dropped ≤ (w.submit job).dropped := by
  obtain ⟨-, -, heq⟩ | ⟨-, -, -, heq⟩ | ⟨-, -, -, heq⟩ := w.submit_cases job
  · exact Nat.le_of_eq (congrArg Worker.dropped heq).symm
  · exact Nat.le_of_eq (congrArg Worker.dropped heq).symm
  · exact Nat.le_trans (Nat.le_succ _) (Nat.le_of_eq (congrArg Worker.dropped heq).symm)

theorem dropped_le_submitAll (w : Worker κ) (jobs : List κ) :
    w.dropped ≤ (w.submitAll jobs).dropped := by
  induction jobs generalizing w with
  | nil => exact Nat.le_refl _
  | cons job jobs ih => exact Nat.le_trans (w.dropped_le_submit job) (ih (w.submit job))

/-- A worker who is held up and drops none of some jobs keeps them in its queue. -/
theorem submitAll_of_held {w : Worker κ} (h : w.held = true) {jobs : List κ}
    (hd : (w.submitAll jobs).dropped = w.dropped) :
    w.submitAll jobs = { w with queue := w.queue ++ jobs } := by
  induction jobs generalizing w with
  | nil => simp only [submitAll, List.foldl_nil, List.append_nil]
  | cons job jobs ih =>
    rw [submitAll_cons] at hd ⊢
    have hrest := (w.submit job).dropped_le_submitAll jobs
    obtain ⟨hfree, -, -⟩ | ⟨-, -, -, heq⟩ | ⟨-, -, -, heq⟩ := w.submit_cases job
    · exact Bool.noConfusion (h.symm.trans hfree)
    · rw [heq] at hd ⊢
      have hall := ih (w := { w with queue := w.queue ++ [job] }) h hd
      rw [hall, List.append_assoc]
      rfl
    · rw [heq] at hd hrest
      simp only at hd hrest
      omega

/-- A worker who has done, and keeps waiting, what is its own of another worker's jobs. -/
structure Share (mine : κ → Bool) (w v : Worker κ) : Prop where
  held : v.held = w.held
  done : v.done = w.done.filter mine
  queue : v.queue = w.queue.filter mine

theorem share_nil (mine : κ → Bool) (capacity capacity' : Nat) :
    Share mine { capacity } { capacity := capacity' } :=
  ⟨rfl, rfl, rfl⟩

variable {mine : κ → Bool} {w v : Worker κ}

theorem Share.submitAll (h : Share mine w v) {jobs : List κ}
    (hw : (w.submitAll jobs).dropped = w.dropped)
    (hv : (v.submitAll (jobs.filter mine)).dropped = v.dropped) :
    Share mine (w.submitAll jobs) (v.submitAll (jobs.filter mine)) := by
  cases hheld : w.held with
  | false =>
    rw [submitAll_of_free hheld, submitAll_of_free (h.held.trans hheld)]
    exact ⟨h.held, by simp only [h.done, List.filter_append], h.queue⟩
  | true =>
    rw [submitAll_of_held hheld hw, submitAll_of_held (h.held.trans hheld) hv]
    exact ⟨h.held, h.done, by simp only [h.queue, List.filter_append]⟩

theorem Share.hold (h : Share mine w v) : Share mine w.hold v.hold := ⟨rfl, h.done, h.queue⟩

theorem Share.release (h : Share mine w v) : Share mine w.release v.release :=
  ⟨rfl, by simp only [Worker.release, h.done, h.queue, List.filter_append], rfl⟩

end TerminalSession.Worker
