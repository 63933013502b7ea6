import TerminalSession.Proofs.Text.Trim
import TerminalSession.Proofs.Text.Visible

/-!
# The normal form of a transcript's text

Cleaning for the transcript goes over a text four times, and what one pass takes out can bring
together what a later one has to see: two line feeds that a carriage return or an escape sequence
stood between are a run for the pass that limits runs. A text in which none of the passes finds
anything to do is in normal form (`Normal`). Cleaning brings every text into it
(`normal_forTranscript`), because each pass sees to its own part and those behind it only leave
characters out, the trimming none from the inside; and the texts that cleaning leaves alone are just
those (`forTranscript_eq_self_iff`).

A run of line feeds is followed through `limitBreaks` together with the feeds that were kept of it
before, at most two (`limited_limitBreaks`).
-/

set_option autoImplicit false

namespace TerminalSession.Text

/-! ## Line feeds in a row -/

/-- Three line feeds in a row, which would be two empty lines. -/
def tripleBreak : List Char := ['\n', '\n', '\n']

/-- A run that another character ends before its third line feed has no part in three in a row. -/
theorem tripleBreak_infix_of_run {c : Char} (hc : c ≠ '\n') {run : Nat} (hrun : run ≤ 2)
    {text : List Char} (h : tripleBreak <:+: List.replicate run '\n' ++ c :: text) :
    tripleBreak <:+: text := by
  induction run with
  | zero =>
    rcases List.infix_cons_iff.mp h with hfront | hin
    · exact absurd (List.cons_prefix_cons.mp hfront).1.symm hc
    · exact hin
  | succ run ih =>
    rcases List.infix_cons_iff.mp h with hfront | hin
    · -- The three would take up the run, and the character after it as well.
      have hsecond := (List.cons_prefix_cons.mp hfront).2
      match run, hrun with
      | 0, _ => exact absurd (List.cons_prefix_cons.mp hsecond).1.symm hc
      | 1, _ =>
        have hthird := (List.cons_prefix_cons.mp hsecond).2
        exact absurd (List.cons_prefix_cons.mp hthird).1.symm hc
    · exact ih (by omega) hin

theorem replicate_append_cons (run : Nat) (text : List Char) :
    List.replicate run '\n' ++ '\n' :: text = List.replicate (run + 1) '\n' ++ text := by
  rw [List.replicate_succ', List.append_assoc]
  rfl

/-- **What is left of the runs has no three line feeds in a row**, with those before it that belong
to its first run. -/
theorem limited_limitBreaks (run : Nat) (text : List Char) :
    ¬tripleBreak <:+: List.replicate (min run 2) '\n' ++ limitBreaks run text := by
  induction text generalizing run with
  | nil =>
    intro h
    have hle := h.length_le
    rw [limitBreaks, List.append_nil, List.length_replicate] at hle
    have hthree : tripleBreak.length = 3 := rfl
    omega
  | cons c text ih =>
    rw [limitBreaks]
    by_cases hc : c = '\n'
    · subst hc
      rw [if_pos rfl]
      by_cases hrun : run < 2
      · have hkept : min run 2 + 1 = min (run + 1) 2 := by omega
        rw [if_pos hrun, replicate_append_cons, hkept]
        exact ih (run + 1)
      · have hfull : min run 2 = min (run + 1) 2 := by omega
        rw [if_neg hrun, hfull]
        exact ih (run + 1)
    · rw [if_neg hc]
      intro h
      exact ih 0 (tripleBreak_infix_of_run hc (Nat.min_le_right run 2) h)

/-- Where there are no three line feeds in a row none is taken out. -/
theorem limitBreaks_eq_self {run : Nat} {text : List Char}
    (h : ¬tripleBreak <:+: List.replicate run '\n' ++ text) : limitBreaks run text = text := by
  induction text generalizing run with
  | nil => rfl
  | cons c text ih =>
    rw [limitBreaks]
    by_cases hc : c = '\n'
    · subst hc
      rw [replicate_append_cons] at h
      have hrun : run < 2 := by
        apply Nat.lt_of_not_le
        intro hle
        obtain ⟨more, rfl⟩ := Nat.exists_eq_add_of_le' hle
        apply h
        have hthree : List.replicate (more + 3) '\n' =
            List.replicate more '\n' ++ List.replicate 3 '\n' :=
          List.replicate_append_replicate.symm
        rw [hthree]
        exact List.infix_append _ tripleBreak _
      rw [if_pos rfl, if_pos hrun, ih h]
    · have hrest : limitBreaks 0 text = text := by
        apply ih
        intro hin
        apply h
        exact hin.trans ((List.suffix_cons c text).trans (List.suffix_append _ _)).isInfix
      rw [if_neg hc, hrest]

/-! ## The normal form -/

/-- A text in which there is nothing to clean. -/
structure Normal (text : List Char) : Prop where
  noEscape : Escape.esc ∉ text
  noReturn : '\r' ∉ text
  limited : ¬tripleBreak <:+: text
  first : ∀ c ∈ text.head?, isBlank c = false
  last : ∀ c ∈ text.getLast?, isBlank c = false

/-- **A cleaned text is in normal form.** -/
theorem normal_forTranscript (text : List Char) : Normal (forTranscript text) := by
  have hinfix : forTranscript text <:+: limitBreaks 0 ((Escape.strip text).filter (· ≠ '\r')) :=
    trim_infix _
  have hkept : (forTranscript text).Sublist ((Escape.strip text).filter (· ≠ '\r')) :=
    hinfix.sublist.trans (limitBreaks_sublist 0 _)
  refine ⟨?_, ?_, ?_, head?_trim _, getLast?_trim _⟩
  · intro hesc
    exact Escape.esc_not_mem_strip text ((hkept.trans List.filter_sublist).subset hesc)
  · intro hreturn
    have hne := (List.mem_filter.mp (hkept.subset hreturn)).2
    exact absurd rfl (of_decide_eq_true hne)
  · intro htriple
    exact limited_limitBreaks 0 _ (htriple.trans hinfix)

/-- And a text in normal form is left alone. -/
theorem Normal.forTranscript_eq {text : List Char} (h : Normal text) :
    forTranscript text = text := by
  have hstrip : Escape.strip text = text := Escape.strip_of_esc_not_mem h.noEscape
  have hkept : text.filter (· ≠ '\r') = text := by
    apply List.filter_eq_self.mpr
    intro c hc
    apply decide_eq_true
    rintro rfl
    exact h.noReturn hc
  have hlimited : limitBreaks 0 text = text := limitBreaks_eq_self h.limited
  rw [forTranscript, hstrip, hkept, hlimited, trim_eq_self h.first h.last]

theorem forTranscript_eq_self_iff {text : List Char} : forTranscript text = text ↔ Normal text := by
  constructor
  · intro h
    rw [← h]
    exact normal_forTranscript text
  · exact Normal.forTranscript_eq

/-- **Cleaning brings a text into normal form, and nothing of what is seen is lost.** There are no
escapes and no carriage returns in it, no three line feeds in a row and no blanks at its ends;
blanks apart it is what stripping leaves, character for character; and cleaning it again changes
nothing. -/
theorem forTranscript_normalizes (text : List Char) :
    Normal (forTranscript text) ∧
      visible (forTranscript text) = visible (Escape.strip text) ∧
      forTranscript (forTranscript text) = forTranscript text := by
  have hnormal : Normal (forTranscript text) := normal_forTranscript text
  exact ⟨hnormal, visible_forTranscript text, hnormal.forTranscript_eq⟩

/-- A carriage return and an escape sequence stand between the line feeds of one run. -/
example : forTranscript "a\r\n\x1b[2K\n\r\n b ".toList = "a\n\n b".toList := by decide +kernel

end TerminalSession.Text
