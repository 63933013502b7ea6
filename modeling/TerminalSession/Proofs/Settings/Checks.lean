import TerminalSession.Settings

/-!
# Checked settings are the settings as written

A check refuses settings or gives a configuration, and the configuration holds what was written:
nothing is rounded or replaced (`Classifier.holds_of_check`, `Recorder.holds_of_check`). Settings
that pass all checks pass those of each component (`exists_monitor_of_check`).

Which fault is reported when there are several is not looked at.
-/

set_option autoImplicit false

namespace TerminalSession.Settings

/-- What gives a result in two steps gives one in each. -/
theorem exists_of_bind {ε α β : Type} {first : Except ε α} {next : α → Except ε β} {result : β}
    (h : (first >>= next) = .ok result) : ∃ a, first = .ok a ∧ next a = .ok result := by
  cases first with
  | error e => cases h
  | ok a => exact ⟨a, rfl, h⟩

/-- A configuration of the classifier holds some settings. -/
structure Classifier.Holds (s : Settings.Classifier) (cfg : TerminalSession.Classifier.Config) :
    Prop where
  idleTimeout : cfg.idleTimeout = s.idleTimeout
  debounce : cfg.debounce = s.debounce
  windowBytes : cfg.windowBytes = s.windowBytes
  promptLines : cfg.promptLines = s.promptLines

theorem Classifier.holds_of_check {s : Settings.Classifier}
    {cfg : TerminalSession.Classifier.Config} (h : s.check = .ok cfg) : s.Holds cfg := by
  unfold Classifier.check at h
  split at h
  · split at h
    · split at h
      · cases h
        exact ⟨rfl, rfl, rfl, rfl⟩
      · cases h
    · cases h
  · cases h

/-- A configuration of the recorder holds some settings. -/
structure Recorder.Holds (s : Settings.Recorder) (cfg : TerminalSession.Recorder.Config) :
    Prop where
  flushThreshold : cfg.flushThreshold = s.flushThreshold
  flushInterval : cfg.flushInterval = s.flushInterval

theorem Recorder.holds_of_check {s : Settings.Recorder} {cfg : TerminalSession.Recorder.Config}
    (h : s.check = .ok cfg) : s.Holds cfg := by
  unfold Recorder.check at h
  split at h
  · split at h
    · cases h
      exact ⟨rfl, rfl⟩
    · cases h
  · cases h

/-- **A checked configuration holds the settings as written.** -/
theorem holds_of_checkMonitor {s : Settings} {cfg : Monitor.Config}
    (h : s.checkMonitor = .ok cfg) :
    s.classifier.Holds cfg.classifier ∧ s.recorder.Holds cfg.recorder := by
  obtain ⟨classifier, hclassifier, hrest⟩ := exists_of_bind h
  obtain ⟨recorder, hrecorder, hresult⟩ := exists_of_bind hrest
  cases hresult
  exact ⟨Classifier.holds_of_check hclassifier, Recorder.holds_of_check hrecorder⟩

theorem exists_monitor_of_check {s : Settings} (h : s.check = .ok ()) :
    ∃ cfg, s.checkMonitor = .ok cfg := by
  obtain ⟨cfg, hcfg, -⟩ := exists_of_bind h
  exact ⟨cfg, hcfg⟩

end TerminalSession.Settings
