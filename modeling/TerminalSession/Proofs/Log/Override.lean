import Mathlib.Data.List.Forall2
import Mathlib.Data.List.TakeWhile
import TerminalSession.Log.Override
import TerminalSession.Proofs.Log.Level
import TerminalSession.Proofs.Text.Lines
import TerminalSession.Proofs.Text.Trim

/-!
# Overrides survive being written

An override is written by a user as a target and a level with an equals sign between them, the
target with its full name or without the root, and blanks wherever they like around the two
(`Override.Spelling`). These texts are read as the override, and no others
(`Override.read_eq_ok_iff`). The directive that is written for an override is one of them
(`Override.Spelling.write`), with the full name of the target, which reading leaves as it is.

In the text of directives the commas stand between directives only, if no override was written with
one; so the text comes apart into the preset's directives and those of the overrides, each of which
is read as what it was written for (`overrides_restored`).

What a filter makes of the directives is not looked at: it has a reader of its own, which knows more
kinds of them.
-/

set_option autoImplicit false

namespace TerminalSession.Log

namespace Override

/-! ## Targets -/

/-- The full name of a target: the root, or that of one below it. -/
def Full (target : List Char) : Prop := target = root ∨ root ++ separator <+: target

/-- The target that a user means by a name. One that is full is taken as it is, any other is looked
for below the root. -/
inductive Means (name : List Char) : List Char → Prop where
  | full (h : Full name) : Means name name
  | short (h : ¬ Full name) : Means name (root ++ separator ++ name)

theorem isFull_iff {name : List Char} :
    (name = root || (root ++ separator).isPrefixOf name) = true ↔ Full name := by
  rw [Bool.or_eq_true, decide_eq_true_eq, List.isPrefixOf_iff_prefix, Full]

theorem means_iff {name target : List Char} : Means name target ↔ fullTarget name = target := by
  constructor
  · rintro (h | h)
    · rw [fullTarget, if_pos (isFull_iff.mpr h)]
    · rw [fullTarget, if_neg (mt isFull_iff.mp h)]
  · rintro rfl
    rw [fullTarget]
    split
    next h => exact .full (isFull_iff.mp h)
    next h => exact .short (mt isFull_iff.mpr h)

/-- **A target that is meant has its full name.** -/
theorem Means.full_right {name target : List Char} (h : Means name target) : Full target := by
  cases h with
  | full h => exact h
  | short => exact .inr (List.prefix_append _ _)

theorem Means.mem {name target : List Char} (h : Means name target) {c : Char} (hc : c ∈ target) :
    c ∈ name ∨ c ∈ root ++ separator := by
  cases h with
  | full => exact .inl hc
  | short => exact (List.mem_append.mp hc).symm

/-- What the root is put before ends as it did. -/
theorem Means.padded {name target : List Char} (h : Means name target) (hne : name ≠ [])
    (hname : Text.Padded name name) : Text.Padded target target := by
  cases h with
  | full => exact hname
  | short =>
    apply Text.Padded.refl
    · rintro c ⟨⟩
      decide
    · rw [List.getLast?_append_of_ne_nil _ hne]
      exact hname.last

/-! ## Reading -/

/-- The texts that a user may write for an override. -/
inductive Spelling (o : Override) : List Char → Prop where
  | pair {left right name level : List Char} (hleft : '=' ∉ left) (hname : Text.Padded name left)
    (hne : name ≠ []) (hmeans : Means name o.target) (hlevel : Text.Padded level right)
    (hspelling : o.level.Spelling level) : Spelling o (left ++ '=' :: right)

/-- An override that a user may write without a comma. -/
def Given (o : Override) : Prop := ∃ text, ',' ∉ text ∧ o.Spelling text

/-- A text without an equals sign is no override. -/
theorem read_of_not_mem {text : List Char} (h : '=' ∉ text) :
    read text = .error (.noEquals text) := by
  have hnone : text.dropWhile (· ≠ '=') = [] := by
    rw [List.dropWhile_eq_nil_iff]
    intro c hc
    exact decide_eq_true (ne_of_mem_of_not_mem hc h)
  rw [read, hnone]

/-- A text is parted at its first equals sign. -/
theorem parted {left : List Char} (h : '=' ∉ left) (right : List Char) :
    (left ++ '=' :: right).takeWhile (· ≠ '=') = left ∧
      (left ++ '=' :: right).dropWhile (· ≠ '=') = '=' :: right := by
  have hpass : ∀ c ∈ left, decide (c ≠ '=') = true := fun c hc =>
    decide_eq_true (ne_of_mem_of_not_mem hc h)
  constructor
  · rw [List.takeWhile_append_of_pos hpass, List.takeWhile_cons_of_neg (by decide), List.append_nil]
  · rw [List.dropWhile_append_of_pos hpass, List.dropWhile_cons_of_neg (by decide)]

theorem Spelling.read_eq {o : Override} {text : List Char} (h : o.Spelling text) :
    read text = .ok o := by
  cases h with
  | @pair left right name level hleft hname hne hmeans hlevel hspelling =>
    obtain ⟨htake, hdrop⟩ := parted hleft right
    have hempty : ¬ name.isEmpty = true := mt List.isEmpty_iff.mp hne
    simp only [read, htake, hdrop, Text.trim_eq_iff.mpr hname, Text.trim_eq_iff.mpr hlevel,
      if_neg hempty, hspelling.ofText?_eq, means_iff.mp hmeans]

/-- **A text is read as an override exactly if it is one of the override's spellings.** -/
theorem read_eq_ok_iff {text : List Char} {o : Override} : read text = .ok o ↔ o.Spelling text := by
  refine ⟨?_, Spelling.read_eq⟩
  intro h
  by_cases hequals : '=' ∈ text
  · obtain ⟨left, right, rfl, hleft⟩ := List.eq_append_cons_of_mem hequals
    obtain ⟨htake, hdrop⟩ := parted hleft right
    simp only [read, htake, hdrop] at h
    split at h
    next => cases h
    next hne =>
      split at h
      next level hlevel =>
        cases h
        exact .pair hleft (Text.padded_trim left) (mt List.isEmpty_iff.mpr hne)
          (means_iff.mpr rfl) (Text.padded_trim right) (Level.ofText?_eq_some_iff.mp hlevel)
      next => cases h
  · rw [read_of_not_mem hequals] at h
    cases h

/-! ## Writing -/

theorem padded_name (level : Level) : Text.Padded level.name.toList level.name.toList :=
  Text.trim_eq_iff.mp (by cases level <;> decide)

/-- The directive of an override that has a spelling is a spelling itself. -/
theorem Spelling.write {o : Override} {text : List Char} (h : o.Spelling text) :
    o.Spelling o.write := by
  obtain ⟨hleft, hname, hne, hmeans, -, -⟩ := h
  have hself : Text.Padded o.target o.target :=
    hmeans.padded hne (Text.Padded.refl hname.head hname.last)
  have hequals : '=' ∉ o.target := by
    intro hmem
    rcases hmeans.mem hmem with hmem | hmem
    · exact hleft (hname.subset hmem)
    · exact absurd hmem (by decide)
  have htarget : o.target ≠ [] := by
    intro hnil
    rcases hmeans.full_right with hfull | hfull
    · exact absurd (hnil.symm.trans hfull) (by decide)
    · rw [hnil, List.prefix_nil] at hfull
      exact absurd hfull (by decide)
  exact .pair hequals hself htarget (.full hmeans.full_right) (padded_name o.level)
    o.level.spelling_name

/-- No characters come in but those of the root, the equals sign and the level. -/
theorem Given.comma_not_mem_write {o : Override} (h : o.Given) : ',' ∉ o.write := by
  obtain ⟨_, hcomma, -, hname, -, hmeans, -, -⟩ := h
  have hlevel : ',' ∉ '=' :: o.level.name.toList := by cases o.level <;> decide
  apply List.not_mem_append _ hlevel
  intro hmem
  rcases hmeans.mem hmem with hmem | hmem
  · exact hcomma (List.mem_append_left _ (hname.subset hmem))
  · exact absurd hmem (by decide)

theorem Given.read_write {o : Override} (h : o.Given) : read o.write = .ok o := by
  obtain ⟨text, -, hspelling⟩ := h
  exact read_eq_ok_iff.mpr hspelling.write

end Override

/-! ## Directives -/

theorem Preset.comma_not_mem_directives (preset : Preset) :
    ∀ directive ∈ preset.directives.map String.toList, ',' ∉ directive := by
  cases preset <;> decide

/-- **The text of directives comes apart into them**, and those of the overrides are read back. -/
theorem directives_restored (preset : Preset) {overrides : List Override}
    (h : ∀ o ∈ overrides, o.Given) :
    Text.pieces ',' (directives preset overrides) =
        preset.directives.map String.toList ++ overrides.map Override.write ∧
      (overrides.map Override.write).map Override.read = overrides.map .ok := by
  constructor
  · have hpreset : preset.directives.map String.toList ≠ [] := by
      cases preset <;> exact List.cons_ne_nil _ _
    apply Text.pieces_intercalate (List.append_ne_nil_of_left_ne_nil hpreset _)
    intro directive hmem
    rcases List.mem_append.mp hmem with hmem | hmem
    · exact preset.comma_not_mem_directives directive hmem
    · obtain ⟨o, ho, rfl⟩ := List.mem_map.mp hmem
      exact (h o ho).comma_not_mem_write
  · rw [List.map_map]
    apply List.map_congr_left
    intro o ho
    exact (h o ho).read_write

/-- **Overrides survive being written.** For every preset and any number of overrides that are read
from texts without commas, the text of directives comes apart at its commas into those of the preset
and one for each override, in order, and each of these is read as the override it was written for.
So the root is put before a target once, where a user left it out, and not again; and the target of
whatever is read as an override has its full name. -/
theorem overrides_restored (preset : Preset) {texts : List (List Char)} {overrides : List Override}
    (hcommas : ∀ text ∈ texts, ',' ∉ text)
    (hread : texts.map Override.read = overrides.map .ok) :
    (Text.pieces ',' (directives preset overrides) =
        preset.directives.map String.toList ++ overrides.map Override.write ∧
      (overrides.map Override.write).map Override.read = overrides.map .ok) ∧
      List.Forall₂ (fun text o => o.Spelling text) texts overrides ∧
      ∀ text o, Override.read text = .ok o → Override.Full o.target := by
  have hgiven : ∀ o ∈ overrides, o.Given := by
    intro o ho
    have hmem : (Except.ok o : Except Override.Fault Override) ∈ texts.map Override.read :=
      hread ▸ List.mem_map_of_mem ho
    obtain ⟨text, htext, hok⟩ := List.mem_map.mp hmem
    exact ⟨text, hcommas text htext, Override.read_eq_ok_iff.mp hok⟩
  refine ⟨directives_restored preset hgiven, ?_, ?_⟩
  · have hpairs : List.Forall₂ (· = ·) (texts.map Override.read) (overrides.map .ok) := by
      rw [hread, List.forall₂_eq_eq_eq]
    rw [List.forall₂_map_left_iff, List.forall₂_map_right_iff] at hpairs
    exact hpairs.imp fun _ _ => Override.read_eq_ok_iff.mp
  · intro text o hok
    obtain ⟨-, -, -, hmeans, -, -⟩ := Override.read_eq_ok_iff.mp hok
    exact hmeans.full_right

/-- Overrides with commas between them: of short and full names and of one that only looks full,
with their levels in several spellings. -/
def mixedSpellings : List Char :=
  "\u00a0activity = DeBug ,termwatch::dispatch\t=+0005,termwatch=wArN,termwatchx=\u20283".toList

/-- The overrides that are meant. -/
def mixedOverrides : List Override :=
  [⟨"termwatch::activity".toList, .debug⟩, ⟨"termwatch::dispatch".toList, .trace⟩,
    ⟨"termwatch".toList, .warn⟩, ⟨"termwatch::termwatchx".toList, .info⟩]

theorem overrides_restored_mixed :
    let texts := Text.pieces ',' mixedSpellings
    ((∀ text ∈ texts, ',' ∉ text) ∧ texts.map Override.read = mixedOverrides.map .ok) ∧
      Text.pieces ',' (directives .quiet mixedOverrides) =
        ["termwatch=warn", "termwatch::activity=debug", "termwatch::dispatch=trace",
          "termwatch=warn", "termwatch::termwatchx=info"].map String.toList ∧
      (mixedOverrides.map Override.write).map Override.read = mixedOverrides.map .ok := by
  intro texts
  have hcommas : ∀ text ∈ texts, ',' ∉ text := fun _ => Text.not_mem_of_mem_pieces
  have hread : texts.map Override.read = mixedOverrides.map .ok := by decide +kernel
  have h := overrides_restored .quiet hcommas hread
  exact ⟨⟨hcommas, hread⟩, h.1⟩

end TerminalSession.Log
