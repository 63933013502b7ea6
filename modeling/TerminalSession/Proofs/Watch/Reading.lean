import TerminalSession.Proofs.Monitor.Parts
import TerminalSession.Proofs.Recorder.Arrivals
import TerminalSession.Watch

/-!
# What a watch reads

The output of a script comes in pieces of its own, and each of these is read in pieces of at most
`readSize` bytes. `readings` is what comes of both: pieces that hold something, are not too long
(`readings_bounds`), and make up the output (`flatten_readings`). They are what a watch's recorder
is fed, if there are no keystrokes (`feeds_recorderSteps`), and what is copied (`copy_eq`).

Where a wait stands between two pieces is not looked at.
-/

set_option autoImplicit false

namespace TerminalSession.Watch

/-! ## Pieces -/

theorem flatten_reads (bytes : Bytes) : (reads bytes).flatten = bytes := by
  induction bytes using reads.induct with
  | case1 bytes h =>
    rw [reads, if_pos h, List.isEmpty_iff.mp h]
    rfl
  | case2 bytes h ih => rw [reads, if_neg h, List.flatten_cons, ih, List.take_append_drop]

theorem reads_bounds {bytes piece : Bytes} (h : piece ∈ reads bytes) :
    0 < piece.length ∧ piece.length ≤ readSize := by
  induction bytes using reads.induct with
  | case1 bytes hempty =>
    rw [reads, if_pos hempty] at h
    cases h
  | case2 bytes hsome ih =>
    rw [reads, if_neg hsome] at h
    rcases List.mem_cons.mp h with rfl | h
    · have hpos : 0 < bytes.length :=
        List.length_pos_iff.mpr fun hnil => hsome (List.isEmpty_iff.mpr hnil)
      rw [List.length_take]
      exact ⟨Nat.lt_min.mpr ⟨by decide, hpos⟩, Nat.min_le_left ..⟩
    · exact ih h

/-- All output of a script. -/
def outputOf (script : List Happening) : Bytes :=
  script.flatMap fun
    | .output data => data
    | .wait _ => []

/-- The pieces that the output of a script is read in. -/
def readings (script : List Happening) : List Bytes :=
  script.flatMap fun
    | .output data => reads data
    | .wait _ => []

theorem flatten_readings (script : List Happening) :
    (readings script).flatten = outputOf script := by
  induction script with
  | nil => rfl
  | cons happening script ih =>
    rw [readings, List.flatMap_cons, List.flatten_append, outputOf, List.flatMap_cons]
    cases happening with
    | output data =>
      show (reads data).flatten ++ (readings script).flatten = data ++ outputOf script
      rw [flatten_reads, ih]
    | wait ms => exact ih

theorem readings_bounds {script : List Happening} {piece : Bytes} (h : piece ∈ readings script) :
    0 < piece.length ∧ piece.length ≤ readSize := by
  obtain ⟨happening, -, hpiece⟩ := List.mem_flatMap.mp h
  cases happening with
  | output data => exact reads_bounds hpiece
  | wait ms => cases hpiece

/-! ## What is told and copied -/

/-- A script does nothing but tell of output and of keystrokes, and wait. -/
theorem mem_scriptSteps {keys : Bytes} {script : List Happening}
    {step : Stage.Step Monitor.Call} (h : step ∈ scriptSteps keys script) :
    (∃ data, step = .call (.output data)) ∨ (∃ data, step = .call (.input data)) ∨
      ∃ ms, step = .sleep ms := by
  induction script generalizing keys with
  | nil => cases h
  | cons happening script ih =>
    cases happening with
    | output data =>
      rcases List.mem_append.mp h with hdata | hrest
      · obtain ⟨piece, -, rfl⟩ := List.mem_map.mp hdata
        exact .inl ⟨piece, rfl⟩
      · exact ih hrest
    | wait ms =>
      rw [scriptSteps] at h
      split at h
      · rcases List.mem_append.mp h with hkeys | hrest
        · obtain ⟨piece, -, rfl⟩ := List.mem_map.mp hkeys
          exact .inr (.inl ⟨piece, rfl⟩)
        · rcases List.mem_cons.mp hrest with rfl | hrest
          · exact .inr (.inr ⟨ms, rfl⟩)
          · exact ih hrest
      · exact ih h

theorem outputIn_inputSteps (keys : Bytes) : (inputSteps keys).flatMap outputIn = [] := by
  rw [inputSteps, List.flatMap_map]
  exact List.flatMap_eq_nil_iff.mpr fun _ _ => rfl

theorem outputIn_outputSteps (data : Bytes) : (outputSteps data).flatMap outputIn = data := by
  rw [outputSteps, List.flatMap_map]
  exact (List.flatMap_id ..).trans (flatten_reads data)

theorem outputIn_scriptSteps (keys : Bytes) (script : List Happening) :
    (scriptSteps keys script).flatMap outputIn = outputOf script := by
  induction script generalizing keys with
  | nil => rfl
  | cons happening script ih =>
    cases happening with
    | output data =>
      rw [scriptSteps, List.flatMap_append, outputIn_outputSteps, ih]
      rfl
    | wait ms =>
      rw [scriptSteps]
      split
      · rw [List.flatMap_append, outputIn_inputSteps, List.flatMap_cons, ih]
        rfl
      · exact ih keys

/-- **The output is copied as it comes**, whoever types meanwhile. -/
theorem copy_eq (options : Options) (keys : Bytes) (script : List Happening) :
    copy options (scriptSteps keys script) = if options.tee then outputOf script else [] := by
  rw [copy, outputIn_scriptSteps]

/-- The steps that the recorder has a share in. -/
def recorderSteps (steps : List (Stage.Step Monitor.Call)) : List (Stage.Step Recorder.Call) :=
  steps.filterMap (Stage.Step.pass? Monitor.Call.recorder?)

theorem recorderSteps_append (steps more : List (Stage.Step Monitor.Call)) :
    recorderSteps (steps ++ more) = recorderSteps steps ++ recorderSteps more :=
  List.filterMap_append

theorem recorderSteps_outputSteps (data : Bytes) :
    recorderSteps (outputSteps data) = (reads data).map fun piece => .call (.output piece) := by
  rw [recorderSteps, outputSteps, List.filterMap_map]
  have htold (piece : Bytes) : Stage.Step.pass? Monitor.Call.recorder? (.call (.output piece)) =
      some (.call (.output piece)) := rfl
  simp only [Function.comp_def, htold, List.filterMap_eq_map']

theorem scriptSteps_wait (ms : Nat) (script : List Happening) :
    scriptSteps [] (.wait ms :: script) =
      if 0 < ms then .sleep ms :: scriptSteps [] script else scriptSteps [] script := by
  rw [scriptSteps, inputSteps, reads]
  rfl

theorem stop_not_mem_recorderSteps (keys : Bytes) (script : List Happening) :
    .call .stop ∉ recorderSteps (scriptSteps keys script) := by
  intro hmem
  obtain ⟨step, hstep, hshare⟩ := List.mem_filterMap.mp hmem
  rcases mem_scriptSteps hstep with ⟨_, rfl⟩ | ⟨_, rfl⟩ | ⟨_, rfl⟩
  · cases hshare
  · cases hshare
  · cases hshare

/-- **A recorder is fed the output in pieces**, if nobody types. -/
theorem feeds_recorderSteps (script : List Happening) :
    Recorder.feeds (recorderSteps (scriptSteps [] script)) =
      (readings script).map Recorder.Feed.output := by
  induction script with
  | nil => rfl
  | cons happening script ih =>
    cases happening with
    | output data =>
      have hfeeds : Recorder.feeds ((reads data).map fun piece => .call (.output piece)) =
          (reads data).map Recorder.Feed.output := by
        rw [Recorder.feeds, List.filterMap_map]
        have hfed (piece : Bytes) : Recorder.stepFeed? (.call (.output piece)) =
            some (.output piece) := rfl
        simp only [Function.comp_def, hfed, List.filterMap_eq_map']
      rw [readings, List.flatMap_cons, List.map_append]
      show _ = (reads data).map Recorder.Feed.output ++ (readings script).map Recorder.Feed.output
      rw [← hfeeds, ← ih, scriptSteps, recorderSteps_append, recorderSteps_outputSteps]
      exact List.filterMap_append
    | wait ms =>
      rw [scriptSteps_wait]
      split
      · exact ih
      · exact ih

end TerminalSession.Watch
