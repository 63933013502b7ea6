import TerminalSession.Settings
import TerminalSession.Json

/-!
# Settings from a document

Settings come from documents in two formats. An `Outline` is what such a document holds as far as
settings can tell: integers, lists, tables, and anything else. `Settings.ofOutline?` reads settings
from it. A section is a table, of which unknown keys are ignored, or a list of the section's values
in order, which may be shorter than the section; missing values keep their defaults.
-/

namespace TerminalSession

set_option autoImplicit false

/-- The part of a document that settings are read from. -/
inductive Outline where
  | integer (value : Int)
  | list (items : List Outline)
  | table (members : List (String × Outline))
  /-- Something no setting is. -/
  | other

namespace Outline

/-- The natural number of 64 bits that a setting holds. -/
def nat64? : Outline → Option Nat
  | .integer (.ofNat n) => if n < Decimal.nat64Limit then some n else none
  | _ => none

/-- The values that a section gives, in the order of the names: those it has. Whether a list may be
longer than the section is up to the document's format. -/
def section? (spare : Bool) (names : List String) : Outline → Option (List (Option Outline))
  | .table members => some (names.map fun name => (members.find? (·.1 = name)).map (·.2))
  | .list items =>
    if !spare && names.length < items.length then none
    else some ((List.range names.length).map fun i => items[i]?)
  | _ => none

/-- The value that a section gives, or the default. -/
def orElse {α : Type} (read : Outline → Option α) (fallback : α) : Option Outline → Option α
  | some outline => read outline
  | none => some fallback

end Outline

namespace Settings

/-- The names of the classifier's settings, in order. -/
def Classifier.names : List String :=
  ["idle_timeout_ms", "debounce_ms", "window_bytes", "prompt_lines"]

/-- The names of the recorder's settings, in order. -/
def Recorder.names : List String := ["flush_threshold_bytes", "flush_interval_ms"]

/-- The names of a summary's settings, in order. -/
def Summary.names : List String :=
  ["title_context_chars", "learnings_context_chars", "title_max_chars", "min_title_input_chars",
   "min_learnings_input_chars", "max_learnings"]

/-- The names of all settings, in order. -/
def names : List String := ["dispatch_queue", "classifier", "recorder", "summary"]

/-- A setting that is a number. -/
def number? (fallback : Nat) : Option Outline → Option Nat := Outline.orElse Outline.nat64? fallback

/-- Reads the classifier's section. -/
def Classifier.ofOutline? (spare : Bool) (outline : Outline) : Option Settings.Classifier :=
  let d : Settings.Classifier := {}
  match outline.section? spare Classifier.names with
  | some [idle, debounce, window, lines] => do
    some {
      idleTimeout := ← number? d.idleTimeout idle
      debounce := ← number? d.debounce debounce
      windowBytes := ← number? d.windowBytes window
      promptLines := ← number? d.promptLines lines }
  | _ => none

/-- Reads the recorder's section. -/
def Recorder.ofOutline? (spare : Bool) (outline : Outline) : Option Settings.Recorder :=
  let d : Settings.Recorder := {}
  match outline.section? spare Recorder.names with
  | some [threshold, interval] => do
    some {
      flushThreshold := ← number? d.flushThreshold threshold
      flushInterval := ← number? d.flushInterval interval }
  | _ => none

/-- Reads the summary's section. -/
def Summary.ofOutline? (spare : Bool) (outline : Outline) : Option Settings.Summary :=
  let d : Settings.Summary := {}
  match outline.section? spare Summary.names with
  | some [title, learnings, length, titleMinimum, learningsMinimum, kept] => do
    some {
      titleContext := ← number? d.titleContext title
      learningsContext := ← number? d.learningsContext learnings
      titleLength := ← number? d.titleLength length
      titleMinimum := ← number? d.titleMinimum titleMinimum
      learningsMinimum := ← number? d.learningsMinimum learningsMinimum
      learningsKept := ← number? d.learningsKept kept }
  | _ => none

/-- Reads all settings; `spare` allows lists longer than their sections. -/
def ofOutline? (spare : Bool) (outline : Outline) : Option Settings :=
  let d : Settings := {}
  match outline.section? spare names with
  | some [queue, classifier, recorder, summary] => do
    some {
      queue := ← number? d.queue queue
      classifier := ← Outline.orElse (Classifier.ofOutline? spare) d.classifier classifier
      recorder := ← Outline.orElse (Recorder.ofOutline? spare) d.recorder recorder
      summary := ← Outline.orElse (Summary.ofOutline? spare) d.summary summary }
  | _ => none

/-! ## JSON documents -/

mutual

/-- The outline of a JSON value. Of members with one name the last counts. -/
def outline : Json → Outline
  | .number literal =>
    match (Json.number literal).int? with
    | some n => .integer n
    | none => .other
  | .array items => .list (outlineItems items)
  | .object members => .table (outlineMembers members).reverse
  | _ => .other

/-- The outlines of an array's items. -/
def outlineItems : List Json → List Outline
  | [] => []
  | item :: items => outline item :: outlineItems items

/-- The outlines of an object's members that have a readable name. -/
def outlineMembers : List (List Json.Symbol × Json) → List (String × Outline)
  | [] => []
  | (name, value) :: members =>
    match Json.plain? name with
    | some name => (String.ofList name, outline value) :: outlineMembers members
    | none => outlineMembers members

end

/-- Reads settings from a JSON value. -/
def ofJson? (j : Json) : Option Settings := ofOutline? false (outline j)

/-- The settings as a JSON value with every key. -/
def toJson (s : Settings) : Json :=
  let part (names : List String) (values : List Nat) : Json :=
    .ofFields (names.zip (values.map fun (n : Nat) => .ofInt n))
  .ofFields (names.zip [
    .ofInt s.queue,
    part Classifier.names [s.classifier.idleTimeout, s.classifier.debounce,
      s.classifier.windowBytes, s.classifier.promptLines],
    part Recorder.names [s.recorder.flushThreshold, s.recorder.flushInterval],
    part Summary.names [s.summary.titleContext, s.summary.learningsContext, s.summary.titleLength,
      s.summary.titleMinimum, s.summary.learningsMinimum, s.summary.learningsKept]])

end Settings

end TerminalSession
