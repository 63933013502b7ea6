import TerminalSession.Proofs.Classifier.Told
import TerminalSession.Proofs.Text.Lines

/-!
# What output asks for

A classifier judges a session by the end of its output. `Tail` says which part of all that was fed
is looked at, without a window that is filled chunk by chunk: the last bytes, as many as the window
has room for, and of their text the longest end with few enough line feeds.

A chunk of output that is not empty asks for the status that the tail of everything fed so far
demands (`asked_eq`), so two runs that were fed the same bytes ask for the same status. It is taken
unless the session has exited or has changed just before (`setStatus_status`). `output_asks` puts
this together for every run.

Which texts read like a prompt is not looked at here.
-/

set_option autoImplicit false

namespace TerminalSession.Classifier

/-! ## The part that is looked at -/

/-- What is looked at of some output: a window of its last bytes, and an end of their text. -/
structure Tail (cfg : Config) (output window : Bytes) (text : List Char) : Prop where
  window_suffix : window <:+ output
  window_length : window.length = min cfg.windowBytes output.length
  text_suffix : text <:+ Utf8.decode window
  lines : text.count '\n' < cfg.promptLines
  /-- No longer end of the window's text has so few line feeds. -/
  longest : ∀ other, other <:+ Utf8.decode window → other.count '\n' < cfg.promptLines →
    other.length ≤ text.length

/-- Something is looked at. -/
theorem tail_lastLines (cfg : Config) (output : Bytes) :
    Tail cfg output (tailWindow cfg.windowBytes output)
      (Text.lastLines (Utf8.decode (tailWindow cfg.windowBytes output)) cfg.promptLines) where
  window_suffix := List.drop_suffix _ _
  window_length := length_tailWindow _ _
  text_suffix := Text.lastLines_suffix _ _
  lines := Text.count_lastLines_lt _ cfg.promptLines_pos
  longest _ hother hcount := (Text.suffix_lastLines hother hcount).length_le

/-- And nothing else is. -/
theorem Tail.eq_lastLines {cfg : Config} {output window : Bytes} {text : List Char}
    (h : Tail cfg output window text) :
    text = Text.lastLines (Utf8.decode (tailWindow cfg.windowBytes output)) cfg.promptLines := by
  have hlook := tail_lastLines cfg output
  have hlengths : window.length = (tailWindow cfg.windowBytes output).length :=
    h.window_length.trans hlook.window_length.symm
  have hwindow : window = tailWindow cfg.windowBytes output :=
    (List.suffix_of_suffix_length_le h.window_suffix hlook.window_suffix hlengths.le).eq_of_length
      hlengths
  rw [← hwindow] at hlook ⊢
  exact (Text.suffix_lastLines h.text_suffix h.lines).eq_of_length
    (Nat.le_antisymm (hlook.longest _ h.text_suffix h.lines)
      (h.longest _ hlook.text_suffix hlook.lines))

/-- A chunk that fills the window replaces what it holds; otherwise the oldest bytes make room. -/
def push (capacity : Nat) (window data : Bytes) : Bytes :=
  if capacity ≤ data.length then data.drop (data.length - capacity)
  else if capacity < window.length + data.length then
    (window ++ data).drop (window.length + data.length - capacity)
  else window ++ data

/-- Each way to fill the window leaves the last bytes in it. -/
theorem push_eq (capacity : Nat) (window data : Bytes) :
    push capacity window data = tailWindow capacity (window ++ data) := by
  rw [push, tailWindow, List.length_append]
  split
  next hfills =>
    have hcount : window.length + data.length - capacity =
        window.length + (data.length - capacity) := by omega
    rw [hcount, List.drop_length_add_append]
  next =>
    split
    next => rfl
    next hroom =>
      have hcount : window.length + data.length - capacity = 0 := by omega
      rw [hcount, List.drop_zero]

/-! ## The status that is asked for -/

/-- The status that a chunk of output asks a running classifier for. -/
def asked (cfg : Config) (data : Bytes) (c : Classifier) : Status :=
  candidate cfg (tailWindow cfg.windowBytes (c.window ++ data))

/-- Output that is not empty hands the status it asks for to the setter. -/
theorem output_of_running (cfg : Config) (now : Nat) {data : Bytes} {c : Classifier}
    (h : c.stopped = false) (hdata : data ≠ []) :
    output cfg now data c = setStatus cfg now (c.asked cfg data)
      { c with
        window := tailWindow cfg.windowBytes (c.window ++ data)
        lastOutput := now
        deadline := now + cfg.idleTimeout } := by
  simp [output, asked, h, hdata]

/-- It is the tail of all that was fed that decides. -/
theorem asked_eq (cfg : Config) (began capacity : Nat) {steps : List (Stage.Step Call)}
    (never : .call .stop ∉ steps) {data window : Bytes} {text : List Char}
    (h : Tail cfg (fed steps ++ data) window text) :
    ((opening cfg began capacity).run (component cfg) steps).1.state.asked cfg data =
      if Prompt.isPrompt (Escape.strip text) then .needsInput else .active := by
  rw [asked, run_window cfg began capacity never, tailWindow_append, candidate, h.eq_lastLines]

/-- The same bytes ask for the same, however they came. -/
theorem asked_congr (cfg : Config) {began began' capacity capacity' : Nat}
    {steps steps' : List (Stage.Step Call)} (never : .call .stop ∉ steps)
    (never' : .call .stop ∉ steps') {data data' : Bytes}
    (h : fed steps ++ data = fed steps' ++ data') :
    ((opening cfg began capacity).run (component cfg) steps).1.state.asked cfg data =
      ((opening cfg began' capacity').run (component cfg) steps').1.state.asked cfg data' := by
  rw [asked_eq cfg began capacity never (tail_lastLines cfg _),
    asked_eq cfg began' capacity' never' (tail_lastLines cfg _), h]

/-! ## The status that is taken -/

/-- The setter takes a status unless the session has exited or has just changed. -/
theorem setStatus_status (cfg : Config) (now : Nat) (next : Status) (c : Classifier) :
    (setStatus cfg now next c).1.status =
      if c.status = .exited ∨ c.isDebounced cfg now = true then c.status else next := by
  unfold setStatus
  by_cases hsame : next = c.status
  · simp [hsame]
  by_cases hexited : c.status = .exited
  · simp [hexited]
  by_cases hsoon : c.isDebounced cfg now = true
  · simp [hsame, hexited, hsoon]
  · simp [hsame, hexited, hsoon]

theorem status_output (cfg : Config) (now : Nat) {data : Bytes} {c : Classifier}
    (h : c.stopped = false) (hdata : data ≠ []) :
    (output cfg now data c).1.status =
      if c.status = .exited ∨ c.isDebounced cfg now = true then c.status else c.asked cfg data := by
  rw [output_of_running cfg now h hdata, setStatus_status]
  rfl

/-- The last change is the latest. -/
theorem Chain.time_le_last {debounce : Nat} {changes : List Accepted} {current : Status}
    (h : Chain debounce changes current) {last : Accepted} (hlast : last ∈ changes.getLast?) :
    ∀ a ∈ changes, a.time ≤ last.time := by
  let spaced : Accepted → Accepted → Prop := fun a b => a.time + debounce ≤ b.time
  have htrans : Trans spaced spaced spaced := ⟨fun {a b c} hab hbc => by
    simp only [spaced] at hab hbc ⊢
    omega⟩
  have hpairwise : changes.Pairwise spaced := List.isChain_iff_pairwise.mp h.spaced
  obtain ⟨earlier, rfl⟩ := List.getLast?_eq_some_iff.mp hlast
  intro a ha
  rcases List.mem_append.mp ha with ha | ha
  · have hle := (List.pairwise_append.mp hpairwise).2.2 a ha last (List.mem_singleton_self last)
    simp only [spaced] at hle
    omega
  · rw [List.mem_singleton.mp ha]

/-- No change stands in the way of another exactly if all are old enough. -/
theorem History.isDebounced_eq_false_iff {cfg : Config} {now : Nat} {c : Classifier}
    {past : List Event} (h : History cfg now c past) :
    c.isDebounced cfg now = false ↔ ∀ a ∈ accepted past, a.time + cfg.debounce ≤ now := by
  rw [isDebounced_eq_false_iff_add h.before, h.last]
  constructor
  · intro hlast a ha
    cases hend : (accepted past).getLast? with
    | none =>
      rw [List.getLast?_eq_none_iff.mp hend] at ha
      cases ha
    | some last =>
      have hle := h.chain.time_le_last hend a ha
      have hold := hlast last.time (by rw [hend]; rfl)
      omega
  · intro hall t ht
    obtain ⟨last, hend, rfl⟩ := Option.map_eq_some_iff.mp ht
    exact hall last (List.mem_of_getLast? hend)

/-- A session that is not told to have exited has not. -/
theorem live_keeps (cfg : Config) :
    Stage.Keeps (component cfg) (· ≠ .exit) fun _ c _ => c.status ≠ .exited where
  call := by
    intro now c past i hne h
    change (call cfg now i c).1.status ≠ .exited
    cases i with
    | output data =>
      simp only [call, output]
      split
      · exact h
      · rw [setStatus_status]
        split
        · exact h
        · rcases candidate_cases cfg (tailWindow cfg.windowBytes (c.window ++ data)) with hc | hc <;>
            simp [hc]
    | exit => exact absurd rfl hne
    | stop =>
      simp only [call, stop]
      split
      · exact h
      · exact h
  ring := by
    intro now due c past _ h
    change (ring cfg due c).1.status ≠ .exited
    unfold ring judge
    split
    · exact h
    · split
      · simp only [setStatus_status]
        split
        · exact h
        · simp
      · exact h
  wait := fun _ _ h => h

/-- **What output asks for, and what becomes of it.** A chunk of output that is not empty, after any
steps, makes a running classifier ask for one status: that of a session that needs input if the tail
of everything fed so far reads like a prompt, and else that of an active one. Whatever other steps
feed the same bytes ask for the same. The session has that status afterwards, unless it has exited or
a change was accepted less than the debounce interval before; then its status stays as it was. With
no debounce and no exit it always has it. -/
theorem output_asks (cfg : Config) (began capacity : Nat) {steps : List (Stage.Step Call)}
    (never : .call .stop ∉ steps) {data : Bytes} (hdata : data ≠ []) :
    let reached := (opening cfg began capacity).run (component cfg) steps
    let asks := reached.1.state.asked cfg data
    let after := (reached.1.step (component cfg) (.call (.output data))).1.state.status
    (∃ window text, Tail cfg (fed steps ++ data) window text) ∧
      (∀ window text, Tail cfg (fed steps ++ data) window text →
        asks = if Prompt.isPrompt (Escape.strip text) then .needsInput else .active) ∧
      call cfg reached.1.now (.output data) reached.1.state =
        setStatus cfg reached.1.now asks
          { reached.1.state with
            window := push cfg.windowBytes reached.1.state.window data
            lastOutput := reached.1.now
            deadline := reached.1.now + cfg.idleTimeout } ∧
      push cfg.windowBytes reached.1.state.window data =
        tailWindow cfg.windowBytes (fed steps ++ data) ∧
      (∀ (began' capacity' : Nat) (steps' : List (Stage.Step Call)) (data' : Bytes),
        .call .stop ∉ steps' → data' ≠ [] → fed steps' ++ data' = fed steps ++ data →
          ((opening cfg began' capacity').run (component cfg) steps').1.state.asked cfg data' =
            asks) ∧
      (reached.1.state.status ≠ .exited →
        (∀ a ∈ accepted reached.2, a.time + cfg.debounce ≤ reached.1.now) → after = asks) ∧
      (reached.1.state.status = .exited ∨
        (∃ a ∈ accepted reached.2, reached.1.now < a.time + cfg.debounce) →
          after = reached.1.state.status) ∧
      (cfg.debounce = 0 → .call .exit ∉ steps → after = asks) := by
  intro reached asks after
  have hrunning : reached.1.state.stopped = false :=
    (run_running_iff cfg began capacity steps).mpr never
  have hwindow : reached.1.state.window = tailWindow cfg.windowBytes (fed steps) :=
    run_window cfg began capacity never
  have hhistory : History cfg reached.1.now reached.1.state reached.2 :=
    run_history cfg began capacity steps
  have hcall := output_of_running cfg reached.1.now hrunning hdata
  rw [← push_eq] at hcall
  have hpush : push cfg.windowBytes reached.1.state.window data =
      tailWindow cfg.windowBytes (fed steps ++ data) := by
    rw [push_eq, hwindow, tailWindow_append]
  have hafter := status_output cfg reached.1.now hrunning hdata
  have hold := hhistory.isDebounced_eq_false_iff
  refine ⟨⟨_, _, tail_lastLines cfg _⟩, fun window text => asked_eq cfg began capacity never, hcall,
    hpush, fun began' capacity' steps' data' never' _ hsame => asked_congr cfg never' never hsame,
    fun hlive hall => ?_, ?_, fun hzero noExit => ?_⟩
  · have hfree := hold.mpr hall
    exact hafter.trans (if_neg (by simp [hlive, hfree]))
  · rintro (hexited | ⟨a, ha, hsoon⟩)
    · exact hafter.trans (if_pos (.inl hexited))
    · have hdebounced : reached.1.state.isDebounced cfg reached.1.now = true := by
        by_contra hfree
        exact Nat.not_le_of_lt hsoon (hold.mp (Bool.eq_false_iff.mpr hfree) a ha)
      exact hafter.trans (if_pos (.inr hdebounced))
  · have hlive : reached.1.state.status ≠ .exited :=
      (live_keeps cfg).run_nil (fun i hi heq => noExit (heq ▸ hi))
        (by simp [opening, start, Status.initial])
    have hfree : reached.1.state.isDebounced cfg reached.1.now = false :=
      isDebounced_eq_false_iff.mpr fun t _ => by simp [hzero]
    exact hafter.trans (if_neg (by simp [hlive, hfree]))

/-- A chevron on a line of its own, cut inside its bytes. -/
def chevronBegun : List (Stage.Step Call) :=
  [.call (.output [0x6F, 0x6B, 0x0A, 0xE2, 0x9D]), .sleep 5]

theorem output_asks_of_chevron :
    let cfg : Config := ⟨1000, 0, 8, 1, by decide, by decide, by decide⟩
    let reached := ((opening cfg 0 1).run (component cfg) chevronBegun).1
    .call .stop ∉ chevronBegun ∧ ([0xAF, 0x20] : Bytes) ≠ [] ∧
      (reached.step (component cfg) (.call (.output [0xAF, 0x20]))).1.state.status =
        .needsInput := by
  intro cfg reached
  have never : .call .stop ∉ chevronBegun := by simp [chevronBegun]
  have noExit : .call .exit ∉ chevronBegun := by simp [chevronBegun]
  have hdata : ([0xAF, 0x20] : Bytes) ≠ [] := by decide
  obtain ⟨-, -, -, -, -, -, -, hstatus⟩ := output_asks cfg 0 1 never hdata
  have hasks : reached.state.asked cfg [0xAF, 0x20] = .needsInput := by decide +kernel
  exact ⟨never, hdata, (hstatus rfl noExit).trans hasks⟩

end TerminalSession.Classifier
