import TerminalSession.Proofs.Classifier.Silence
import TerminalSession.Proofs.Watch.Reading

/-!
# How a watch ends

At the end of the output a watch waits for the debounce interval, so that the exit is not discarded
as a change that came too soon, and then tells the monitor of it. The idle timer goes on in that
wait. If it finds the session silent there, that is a change as well, and the exit comes too soon
after it.

`EndsBy` says which of the two happens, in the terms of the moment at which the output ended: when
output last came, when the status last changed, and what it was. `teardown_ends` is the law, of
every script that is watched and of every monitor that is told of output and of waits.

The log, the transcript and the copy of the output are not looked at.
-/

set_option autoImplicit false

namespace TerminalSession.Watch

open Monitor (component)
open Classifier (Accepted FallsSilent)

/-- The changes of status that were accepted, in order. -/
def changes (events : List Monitor.Event) : List Accepted :=
  Classifier.accepted (events.filterMap Monitor.Event.activity?)

/-- The session falls idle while a watch waits to tell of the exit. -/
def FallsSilentIn (cfg : Monitor.Config) (closing : Stage Monitor Job) : Prop :=
  FallsSilent cfg.classifier closing.now (closing.now + cfg.classifier.debounce)
    closing.state.classifier

/-- A watch whose output ended at one stage ended at another, after some events: as exited, unless
the session fell idle just before. Either way that was the last change. -/
structure EndsBy (cfg : Monitor.Config) (closing ending : Stage Monitor Job)
    (events : List Monitor.Event) : Prop where
  exited : ending.state.classifier.status = .exited ↔ ¬FallsSilentIn cfg closing
  idle : ending.state.classifier.status = .idle ↔ FallsSilentIn cfg closing
  last : (changes events).getLast?.map (fun a => a.change.current) =
    some ending.state.classifier.status

/-! ## The classifier's share -/

/-- The steps that the classifier has a share in. -/
def classifierSteps (steps : List (Stage.Step Monitor.Call)) : List (Stage.Step Classifier.Call) :=
  steps.filterMap (Stage.Step.pass? Monitor.Call.classifier?)

theorem stop_not_mem_classifierSteps {steps : List (Stage.Step Monitor.Call)}
    (h : .call .stop ∉ steps) : .call .stop ∉ classifierSteps steps := by
  intro hmem
  obtain ⟨step, hstep, hshare⟩ := List.mem_filterMap.mp hmem
  cases step with
  | call i =>
    obtain ⟨j, hj, hcall⟩ := Option.map_eq_some_iff.mp hshare
    cases hcall
    cases i with
    | stop => exact h hstep
    | output data => cases hj
    | input data => cases hj
    | exit => cases hj
  | sleep ms => cases hshare
  | hold => cases hshare
  | release => cases hshare

/-- A watch's classifier runs as a classifier does by itself. -/
theorem run_classifier (e : Equipment) (steps : List (Stage.Step Monitor.Call)) :
    Stage.Shows Monitor.classifier (e.begin.run (component e.cfg) steps).1
        ((Classifier.opening e.cfg.classifier 0 0).run (Classifier.component e.cfg.classifier)
          (classifierSteps steps)).1 ∧
      ((Classifier.opening e.cfg.classifier 0 0).run (Classifier.component e.cfg.classifier)
          (classifierSteps steps)).2 =
        (e.begin.run (component e.cfg) steps).2.filterMap Monitor.Event.activity? :=
  (Monitor.classifier_role e.cfg).run ⟨rfl, rfl⟩ steps

/-- The last change led to the status, if that is not the first one. -/
theorem last_change {debounce : Nat} {accepted : List Accepted} {status : Status}
    (h : Classifier.Chain debounce accepted status) (hne : status ≠ .active) :
    accepted.getLast?.map (fun a => a.change.current) = some status := by
  have hends := h.ends
  cases hlast : accepted.getLast? with
  | none =>
    rw [hlast] at hends
    exact absurd hends hne
  | some a =>
    rw [hlast] at hends
    rw [hends]
    rfl

/-- The status at the end says it all. -/
theorem endsBy_of_status {e : Equipment} {closing : Stage Monitor Job}
    {steps : List (Stage.Step Monitor.Call)}
    (h : (FallsSilentIn e.cfg closing ∧
        (e.begin.run (component e.cfg) steps).1.state.classifier.status = .idle) ∨
      (¬FallsSilentIn e.cfg closing ∧
        (e.begin.run (component e.cfg) steps).1.state.classifier.status = .exited)) :
    EndsBy e.cfg closing (e.begin.run (component e.cfg) steps).1
      (e.begin.run (component e.cfg) steps).2 := by
  obtain ⟨hshows, hevents⟩ := run_classifier e steps
  have hchain := (Classifier.run_history e.cfg.classifier 0 0 (classifierSteps steps)).chain
  rw [hevents, hshows.state] at hchain
  rcases h with ⟨hfalls, hstatus⟩ | ⟨hnot, hstatus⟩
  · refine ⟨?_, iff_of_true hstatus hfalls, last_change hchain (by rw [hstatus]; decide)⟩
    rw [hstatus]
    exact iff_of_false nofun (not_not_intro hfalls)
  · refine ⟨iff_of_true hstatus hnot, ?_, last_change hchain (by rw [hstatus]; decide)⟩
    rw [hstatus]
    exact iff_of_false nofun hnot

/-! ## The wait and the exit -/

/-- What a watch does at the end of the output, before it stops. -/
def leaving (cfg : Monitor.Config) : List (Stage.Step Monitor.Call) :=
  [.sleep cfg.classifier.debounce, .call .exit]

/-- The status after the wait and the exit. -/
theorem status_leaving (e : Equipment) {steps : List (Stage.Step Monitor.Call)}
    (never : .call .stop ∉ steps) :
    (FallsSilentIn e.cfg (e.begin.run (component e.cfg) steps).1 ∧
        (e.begin.run (component e.cfg) (steps ++ leaving e.cfg)).1.state.classifier.status =
          .idle) ∨
      (¬FallsSilentIn e.cfg (e.begin.run (component e.cfg) steps).1 ∧
        (e.begin.run (component e.cfg) (steps ++ leaving e.cfg)).1.state.classifier.status =
          .exited) := by
  have hshares : classifierSteps (steps ++ leaving e.cfg) =
      classifierSteps steps ++ [.sleep e.cfg.classifier.debounce, .call .exit] :=
    List.filterMap_append
  have hclosing := (run_classifier e steps).1
  have hending := (run_classifier e (steps ++ leaving e.cfg)).1
  have hexit := Classifier.run_exit e.cfg.classifier 0 0 (stop_not_mem_classifierSteps never)
  rw [hshares] at hending
  rw [FallsSilentIn, ← hclosing.state, ← hclosing.now, ← hending.state, Stage.run_append]
  exact hexit

theorem endsBy_leaving (e : Equipment) {steps : List (Stage.Step Monitor.Call)}
    (never : .call .stop ∉ steps) :
    EndsBy e.cfg (e.begin.run (component e.cfg) steps).1
      (e.begin.run (component e.cfg) (steps ++ leaving e.cfg)).1
      (e.begin.run (component e.cfg) (steps ++ leaving e.cfg)).2 :=
  endsBy_of_status (status_leaving e never)

/-- Stopping keeps the status. -/
theorem status_stop (cfg : Monitor.Config) (s : Stage Monitor Job) :
    (s.run (component cfg) [.call .stop]).1.state.classifier.status =
      s.state.classifier.status := by
  have hseen : (Monitor.stop cfg s.now s.state).1.classifier =
      (Classifier.stop s.state.classifier).1 :=
    congrArg Prod.fst (Monitor.stop_seen cfg s.now s.state)
  have hstop : (Classifier.stop s.state.classifier).1.status = s.state.classifier.status := by
    unfold Classifier.stop
    split
    · rfl
    · rfl
  exact (congrArg Classifier.status hseen).trans hstop

theorem endsBy_teardown (e : Equipment) {steps : List (Stage.Step Monitor.Call)}
    (never : .call .stop ∉ steps) :
    EndsBy e.cfg (e.begin.run (component e.cfg) steps).1
      (e.begin.run (component e.cfg) (steps ++ teardown e.cfg)).1
      (e.begin.run (component e.cfg) (steps ++ teardown e.cfg)).2 := by
  have hsteps : steps ++ teardown e.cfg = (steps ++ leaving e.cfg) ++ [.call .stop] :=
    (List.append_assoc steps (leaving e.cfg) [.call .stop]).symm
  refine endsBy_of_status ?_
  rw [hsteps, Stage.run_append, status_stop]
  exact status_leaving e never

/-! ## Scripts -/

/-- The steps of a watch are those of a run. -/
theorem steps_stage (cfg : Monitor.Config) (options : Options) (clock : Nat → Int)
    (stage : Stage Monitor Job) (l : List (Stage.Step Monitor.Call)) :
    (steps cfg options clock stage l).1 = (stage.run (component cfg) l).1 := by
  induction l generalizing stage with
  | nil => rfl
  | cons s rest ih => exact ih _

theorem play_stage (e : Equipment) (options : Options) (clock : Nat → Int) (d : Directory)
    (script : List Happening) :
    (play e options clock d script).stage =
      (e.begin.run (component e.cfg)
        (scriptSteps (keystrokes options d script).1 script ++ teardown e.cfg)).1 := by
  rw [Stage.run_append, ← steps_stage e.cfg options clock, ← steps_stage e.cfg options clock]
  rfl

theorem stop_not_mem_scriptSteps (keys : Bytes) (script : List Happening) :
    .call .stop ∉ scriptSteps keys script := by
  intro hmem
  rcases mem_scriptSteps hmem with ⟨_, h⟩ | ⟨_, h⟩ | ⟨_, h⟩
  · cases h
  · cases h
  · cases h

/-- What happens to a session, told to a monitor as it is. -/
def Happening.step : Happening → Stage.Step Monitor.Call
  | .output data => .call (.output data)
  | .wait ms => .sleep ms

/-- **A watch ends as exited, unless its session falls idle while it waits to tell of the exit.**
So ends every watch of a script, and so does a monitor that is told of any output and waits, and
then of a wait of the debounce interval and the exit. -/
theorem teardown_ends (e : Equipment) :
    (∀ (options : Options) (clock : Nat → Int) (d : Directory) (script : List Happening),
      let watched := scriptSteps (keystrokes options d script).1 script
      EndsBy e.cfg (e.begin.run (component e.cfg) watched).1 (play e options clock d script).stage
        (e.begin.run (component e.cfg) (watched ++ teardown e.cfg)).2) ∧
      ∀ happenings : List Happening,
        let told := happenings.map Happening.step
        EndsBy e.cfg (e.begin.run (component e.cfg) told).1
          (e.begin.run (component e.cfg) (told ++ leaving e.cfg)).1
          (e.begin.run (component e.cfg) (told ++ leaving e.cfg)).2 := by
  refine ⟨fun options clock d script => ?_, fun happenings => endsBy_leaving e fun hmem => ?_⟩
  · rw [play_stage]
    exact endsBy_teardown e (stop_not_mem_scriptSteps _ script)
  · obtain ⟨happening, -, hstep⟩ := List.mem_map.mp hmem
    cases happening with
    | output data => cases hstep
    | wait ms => cases hstep

/-- Output, and the end nine tenths of a second later. With an idle timeout of a second and a
debounce interval of half a second the session falls idle while the watch waits, and never counts as
exited. -/
theorem play_pausing :
    (play
      { cfg :=
          { classifier := ⟨1000, 500, 4096, 3, by decide, by decide, by decide⟩
            recorder := ⟨1024, 5000, by decide, by decide⟩ }
        worker := { capacity := 1024 } }
      {} (fun _ => 0) {} [.output [0x78], .wait 900]).stage.state.classifier.status = .idle := by
  decide +kernel

end TerminalSession.Watch
