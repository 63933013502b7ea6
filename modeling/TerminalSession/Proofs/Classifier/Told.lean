import TerminalSession.Proofs.Classifier.Silence
import TerminalSession.Proofs.Stage.Moment

/-!
# What a classifier knows of what it was told

Whatever the steps of a run, the classifier's status and its timer agree with what happened in it
(`run_reached`). Two more things can be read off the steps. It runs until it is told to stop
(`run_running_iff`). And while it runs, its window holds the last bytes of all that was fed, as many
as there is room for and however they came, and it knows when output last came (`run_heard`).

What the window says of the session is looked at in `Proofs/Classifier/Tail`.
-/

set_option autoImplicit false

namespace TerminalSession.Classifier

/-! ## What is known at an instant -/

/-- What is known of a classifier at an instant, with all that has happened in it. -/
def Reached (cfg : Config) (now : Nat) (c : Classifier) (past : List Event) : Prop :=
  (History cfg now c past ∧ Awake now c) ∧ (c.stopped = false → Armed cfg now c)

theorem reached_keeps (cfg : Config) : Stage.Keeps (component cfg) (fun _ => True) (Reached cfg) :=
  (history_keeps cfg _).and (armed_keeps cfg _)

theorem opening_reached (cfg : Config) (began : Nat) : Reached cfg began (start cfg began) [] :=
  ⟨start_history cfg began, fun _ => start_armed cfg began⟩

theorem run_reached (cfg : Config) (began capacity : Nat) (steps : List (Stage.Step Call)) :
    Reached cfg ((opening cfg began capacity).run (component cfg) steps).1.now
      ((opening cfg began capacity).run (component cfg) steps).1.state
      ((opening cfg began capacity).run (component cfg) steps).2 :=
  (reached_keeps cfg).run_nil (fun _ _ => trivial) (opening_reached cfg began)

/-! ## Running and stopped -/

/-- A classifier runs until it is told to stop. -/
theorem run_running_iff (cfg : Config) (began capacity : Nat) (steps : List (Stage.Step Call)) :
    ((opening cfg began capacity).run (component cfg) steps).1.state.stopped = false ↔
      .call .stop ∉ steps := by
  constructor
  · rintro hrunning hmem
    obtain ⟨first, rest, rfl⟩ := List.append_of_mem hmem
    rw [Stage.run_append] at hrunning
    have hstopped := stop_stopped ((opening cfg began capacity).run (component cfg) first).1.state
    have hstill := ((frozen_of_stopped cfg hstopped).run
      (s := (((opening cfg began capacity).run (component cfg) first).1.step (component cfg)
        (.call .stop)).1) rest).1.state
    have hafter := (congrArg Classifier.stopped hstill).trans hstopped
    exact Bool.noConfusion (hrunning.symm.trans hafter)
  · intro never
    exact (running_keeps cfg).run_nil (fun i hi heq => never (heq ▸ hi)) rfl

/-! ## The window -/

theorem length_tailWindow (capacity : Nat) (output : Bytes) :
    (tailWindow capacity output).length = min capacity output.length := by
  rw [tailWindow, List.length_drop]
  omega

/-- What the window has lost it would have lost anyway. -/
theorem tailWindow_append (capacity : Nat) (earlier data : Bytes) :
    tailWindow capacity (tailWindow capacity earlier ++ data) =
      tailWindow capacity (earlier ++ data) := by
  have hlength := length_tailWindow capacity earlier
  simp only [tailWindow] at hlength ⊢
  rw [List.length_append, hlength, List.length_append]
  by_cases hfits : earlier.length ≤ capacity
  · rw [Nat.sub_eq_zero_of_le hfits, List.drop_zero, Nat.min_eq_right hfits]
  · have hcut : min capacity earlier.length + data.length - capacity = data.length := by omega
    have hall : earlier.length + data.length - capacity =
        (earlier.length - capacity) + data.length := by omega
    have hfirst : (earlier ++ data).drop (earlier.length - capacity) =
        earlier.drop (earlier.length - capacity) ++ data :=
      List.drop_append_of_le_length (Nat.sub_le _ _)
    rw [hcut, hall, ← List.drop_drop, hfirst]

/-! ## What was heard -/

/-- The bytes that a step feeds. -/
def stepOutput : Stage.Step Call → Bytes
  | .call (.output data) => data
  | .call .exit | .call .stop | .sleep _ | .hold | .release => []

/-- All bytes fed, in order; everything else about the steps is left out. -/
def fed (steps : List (Stage.Step Call)) : Bytes := steps.flatMap stepOutput

/-- The instant of a call that brings output. -/
def outputTime? : Nat × Call → Option Nat
  | (time, .output data) => if data.isEmpty then none else some time
  | (_, .exit) | (_, .stop) => none

/-- When output last came to a classifier begun at an instant; that instant, if none came. -/
def lastOutputAt (began : Nat) (steps : List (Stage.Step Call)) : Nat :=
  ((Stage.calls began steps).filterMap outputTime?).getLast?.getD began

theorem le_lastOutputAt (began : Nat) (steps : List (Stage.Step Call)) :
    began ≤ lastOutputAt began steps := by
  rw [lastOutputAt]
  cases hlast : ((Stage.calls began steps).filterMap outputTime?).getLast? with
  | none => exact Nat.le_refl _
  | some time =>
    obtain ⟨⟨t, i⟩, hcall, htime⟩ := List.mem_filterMap.mp (List.mem_of_getLast? hlast)
    have hle := Stage.le_of_mem_calls hcall
    cases i with
    | output data =>
      rw [outputTime?] at htime
      split at htime
      · cases htime
      · cases htime
        exact hle
    | exit => cases htime
    | stop => cases htime

/-- What output alone changes: the window, and when output last came. -/
def heard (c : Classifier) : Bytes × Nat := (c.window, c.lastOutput)

@[simp] theorem setStatus_heard (cfg : Config) (now : Nat) (next : Status) (c : Classifier) :
    (setStatus cfg now next c).1.heard = c.heard := by
  obtain ⟨_, _, hframe⟩ := setStatus_frame cfg now next c
  rw [hframe]
  rfl

/-- The timer is not heard. -/
theorem ring_heard (cfg : Config) (now : Nat) (c : Classifier) :
    (ring cfg now c).1.heard = c.heard := by
  unfold ring judge
  split
  · rfl
  · split
    · exact setStatus_heard cfg now .idle c
    · rfl

theorem call_heard (cfg : Config) (now : Nat) (i : Call) {c : Classifier} {past : Bytes}
    (hrunning : c.stopped = false) (hwindow : c.window = tailWindow cfg.windowBytes past) :
    (call cfg now i c).1.heard =
      (tailWindow cfg.windowBytes (past ++ stepOutput (.call i)),
        (outputTime? (now, i)).getD c.lastOutput) := by
  cases i with
  | output data =>
    by_cases hempty : data = []
    · simp [call, output, heard, stepOutput, outputTime?, hempty, hwindow]
    · have hdata : data.isEmpty = false := by simp [hempty]
      simp only [call, output, hdata, hrunning, Bool.or_self, Bool.false_eq_true, if_false,
        setStatus_heard]
      simp [heard, stepOutput, outputTime?, hdata, hwindow, tailWindow_append]
  | exit =>
    simp only [call, exit, hrunning, Bool.false_eq_true, if_false, setStatus_heard]
    simp [heard, stepOutput, outputTime?, hwindow]
  | stop => simp [call, stop, hrunning, heard, stepOutput, outputTime?, hwindow]

/-- **A running classifier knows the end of all that was fed, and when output last came.** -/
theorem run_heard (cfg : Config) {s : Stage Classifier Job} {past : Bytes}
    (hrunning : s.state.stopped = false)
    (hwindow : s.state.window = tailWindow cfg.windowBytes past) {steps : List (Stage.Step Call)}
    (never : .call .stop ∉ steps) :
    (s.run (component cfg) steps).1.state.heard =
      (tailWindow cfg.windowBytes (past ++ fed steps),
        ((Stage.calls s.now steps).filterMap outputTime?).getLast?.getD s.state.lastOutput) := by
  induction steps generalizing s past with
  | nil => simp [Stage.run, heard, fed, Stage.calls, hwindow]
  | cons step steps ih =>
    obtain ⟨hne, hrest⟩ := not_or.mp fun h => never (List.mem_cons.mpr h)
    have hstill : (s.step (component cfg) step).1.state.stopped = false :=
      @Stage.Keeps.step _ _ _ _ _ _ _ (running_keeps cfg) s step [] (fun i hi heq =>
        hne (heq ▸ hi.symm)) hrunning
    have hfed : past ++ fed (step :: steps) = (past ++ stepOutput step) ++ fed steps := by
      simp [fed]
    have hquiet (hsame : (s.step (component cfg) step).1.state.heard = s.state.heard)
        (hnothing : stepOutput step = []) :
        (s.step (component cfg) step).1.state.window =
            tailWindow cfg.windowBytes (past ++ stepOutput step) ∧
          (s.step (component cfg) step).1.state.lastOutput = s.state.lastOutput := by
      rw [hnothing, List.append_nil, ← hwindow]
      exact ⟨congrArg Prod.fst hsame, congrArg Prod.snd hsame⟩
    rw [Stage.run, hfed]
    cases step with
    | call i =>
      have hcall := call_heard cfg s.now i hrunning hwindow
      have hlast : (s.step (component cfg) (.call i)).1.state.lastOutput =
          (outputTime? (s.now, i)).getD s.state.lastOutput := congrArg Prod.snd hcall
      rw [ih hstill (congrArg Prod.fst hcall) hrest, hlast, Stage.calls, List.filterMap_cons]
      cases outputTime? (s.now, i) with
      | none => rfl
      | some time => rw [List.getLast?_cons]; rfl
    | sleep ms =>
      obtain ⟨hkept, hlast⟩ := hquiet (Component.elapse_view (ring_heard cfg) _ _) rfl
      rw [ih hstill hkept hrest, hlast]
      rfl
    | hold =>
      obtain ⟨hkept, hlast⟩ := hquiet rfl rfl
      rw [ih hstill hkept hrest, hlast]
      rfl
    | release =>
      obtain ⟨hkept, hlast⟩ := hquiet rfl rfl
      rw [ih hstill hkept hrest, hlast]
      rfl

theorem run_opening_heard (cfg : Config) (began capacity : Nat) {steps : List (Stage.Step Call)}
    (never : .call .stop ∉ steps) :
    ((opening cfg began capacity).run (component cfg) steps).1.state.heard =
      (tailWindow cfg.windowBytes (fed steps), lastOutputAt began steps) := by
  have hempty : (opening cfg began capacity).state.window = tailWindow cfg.windowBytes [] := by
    simp [opening, start, tailWindow]
  exact run_heard cfg rfl hempty never

theorem run_window (cfg : Config) (began capacity : Nat) {steps : List (Stage.Step Call)}
    (never : .call .stop ∉ steps) :
    ((opening cfg began capacity).run (component cfg) steps).1.state.window =
      tailWindow cfg.windowBytes (fed steps) :=
  congrArg Prod.fst (run_opening_heard cfg began capacity never)

theorem run_lastOutput (cfg : Config) (began capacity : Nat) {steps : List (Stage.Step Call)}
    (never : .call .stop ∉ steps) :
    ((opening cfg began capacity).run (component cfg) steps).1.state.lastOutput =
      lastOutputAt began steps :=
  congrArg Prod.snd (run_opening_heard cfg began capacity never)

end TerminalSession.Classifier
