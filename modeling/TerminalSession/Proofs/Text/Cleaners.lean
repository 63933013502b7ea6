import TerminalSession.Proofs.Text.NormalForm
import TerminalSession.Proofs.Text.Words

/-!
# The two cleaners

For a summary the words of a text are all that counts, so it does not matter if blanks have been
tidied up before: collapsing sees neither what was trimmed (`collapseBlanks_trim`) nor how many line
feeds stood in a row (`squeeze_limitBreaks`), and it leaves alone what it has collapsed
(`collapseBlanks_collapseBlanks`).

Carriage returns are the one thing the cleaners disagree on. Cleaning for the transcript takes them
out, and a word goes on where one stood; collapsing takes them for blanks, and a word ends there. It
makes no difference where a line feed stands behind each, as at the end of a line
(`squeeze_filter_return`), and so the words of a transcript are those of the output it was made from
(`cleaners_agree`).
-/

set_option autoImplicit false

namespace TerminalSession.Text

/-! ## Blanks that collapsing does not see -/

theorem squeeze_cons_congr {c : Char} {text more : List Char}
    (h : ∀ started pending, squeeze text started pending = squeeze more started pending)
    (started pending : Bool) :
    squeeze (c :: text) started pending = squeeze (c :: more) started pending := by
  cases hc : isBlank c with
  | true => rw [squeeze_of_blank hc, squeeze_of_blank hc, h]
  | false => rw [squeeze_of_word hc, squeeze_of_word hc, h]

/-- Before the first word it does not matter if there were blanks. -/
theorem squeeze_unstarted (text : List Char) (pending pending' : Bool) :
    squeeze text false pending = squeeze text false pending' := by
  cases text with
  | nil => rfl
  | cons c text =>
    cases hc : isBlank c with
    | true => rw [squeeze_of_blank hc, squeeze_of_blank hc]
    | false => rw [squeeze_of_word hc, squeeze_of_word hc, Bool.false_and, Bool.false_and]

theorem squeeze_blanks {blanks : List Char} (h : ∀ b ∈ blanks, isBlank b = true)
    (started pending : Bool) : squeeze blanks started pending = [] := by
  induction blanks generalizing pending with
  | nil => rfl
  | cons b blanks ih =>
    obtain ⟨hb, hrest⟩ := List.forall_mem_cons.mp h
    rw [squeeze_of_blank hb, ih hrest]

theorem collapseBlanks_append_blanks {blanks : List Char} (h : ∀ b ∈ blanks, isBlank b = true)
    (text : List Char) : collapseBlanks (text ++ blanks) = collapseBlanks text := by
  obtain ⟨started, pending, hmore⟩ := exists_squeeze_append text false false
  rw [collapseBlanks, hmore, squeeze_blanks h, List.append_nil, collapseBlanks]

theorem collapseBlanks_trimStart (text : List Char) :
    collapseBlanks (trimStart text) = collapseBlanks text := by
  induction text with
  | nil => rfl
  | cons c text ih =>
    cases hc : isBlank c with
    | true =>
      rw [collapseBlanks, collapseBlanks, squeeze_of_blank hc, trimStart,
        List.dropWhile_cons_of_pos hc, squeeze_unstarted text true false]
      exact ih
    | false => rw [trimStart, List.dropWhile_cons_of_neg (ne_true_of_eq_false hc)]

theorem collapseBlanks_trimEnd (text : List Char) :
    collapseBlanks (trimEnd text) = collapseBlanks text := by
  obtain ⟨blanks, hblanks, htext⟩ := exists_trimEnd text
  rw [← collapseBlanks_append_blanks hblanks (trimEnd text), ← htext]

theorem collapseBlanks_trim (text : List Char) :
    collapseBlanks (trim text) = collapseBlanks text := by
  rw [trim, collapseBlanks_trimEnd, collapseBlanks_trimStart]

/-- A line feed that is left out stands behind another one, so the blank has been seen. -/
theorem squeeze_limitBreaks {run : Nat} {pending : Bool} (h : 0 < run → pending = true)
    (text : List Char) (started : Bool) :
    squeeze (limitBreaks run text) started pending = squeeze text started pending := by
  induction text generalizing run started pending with
  | nil => rfl
  | cons c text ih =>
    rw [limitBreaks]
    split
    next hc =>
      have hblank : isBlank c = true := by
        rw [hc]
        decide
      have hmore : squeeze (limitBreaks (run + 1) text) started true =
          squeeze text started true := ih (fun _ => rfl) started
      split
      next => rw [squeeze_of_blank hblank, squeeze_of_blank hblank, hmore]
      next hrun =>
        have hpending : pending = true := h (by omega)
        rw [squeeze_of_blank hblank, hpending, hmore]
    next =>
      apply squeeze_cons_congr
      exact fun started _ => ih (fun hpos => absurd hpos (Nat.lt_irrefl 0)) started

/-! ## Carriage returns -/

/-- Every carriage return has a line feed behind it. -/
def ReturnsEndLines (text : List Char) : Prop :=
  ∀ i < text.length, text[i]? = some '\r' → text[i + 1]? = some '\n'

instance (text : List Char) : Decidable (ReturnsEndLines text) :=
  inferInstanceAs (Decidable (∀ i < text.length, text[i]? = some '\r' → text[i + 1]? = some '\n'))

theorem ReturnsEndLines.of_cons {c : Char} {text : List Char} (h : ReturnsEndLines (c :: text)) :
    ReturnsEndLines text :=
  fun i hi => h (i + 1) (Nat.succ_lt_succ hi)

/-- Behind a carriage return that ends a line the same blanks are seen as without it. -/
theorem squeeze_of_return {text : List Char} (h : ReturnsEndLines ('\r' :: text))
    (started pending : Bool) :
    squeeze ('\r' :: text) started pending = squeeze text started pending := by
  have hfeed : text[0]? = some '\n' := by
    have hnext := h 0 (Nat.succ_pos _)
    rw [List.getElem?_cons_zero, List.getElem?_cons_succ] at hnext
    exact hnext rfl
  cases text with
  | nil => cases hfeed
  | cons c text =>
    have hc : isBlank c = true := by
      rw [Option.some.inj hfeed]
      decide
    have hreturn : isBlank '\r' = true := by decide
    rw [squeeze_of_blank hreturn, squeeze_of_blank hc, squeeze_of_blank hc]

theorem squeeze_filter_return {text : List Char} (h : ReturnsEndLines text)
    (started pending : Bool) :
    squeeze (text.filter (· ≠ '\r')) started pending = squeeze text started pending := by
  induction text generalizing started pending with
  | nil => rfl
  | cons c text ih =>
    have hmore := ih h.of_cons
    rw [List.filter_cons]
    split
    next => exact squeeze_cons_congr hmore started pending
    next hkept =>
      have hreturn : c = '\r' := Decidable.not_not.mp (mt decide_eq_true hkept)
      rw [hmore, hreturn, squeeze_of_return (hreturn ▸ h)]

/-! ## What is collapsed -/

/-- What has been collapsed stays as it is. -/
theorem squeeze_squeeze (text : List Char) (started pending : Bool) :
    squeeze (squeeze text started pending) started false = squeeze text started pending := by
  induction text generalizing started pending with
  | nil => rfl
  | cons c text ih =>
    cases hc : isBlank c with
    | true => rw [squeeze_of_blank hc, ih]
    | false =>
      rw [squeeze_of_word hc]
      split
      next h =>
        obtain ⟨rfl, rfl⟩ : started = true ∧ pending = true := Bool.and_eq_true_iff.mp h
        rw [List.cons_append, List.singleton_append, squeeze_of_blank isBlank_space,
          squeeze_of_word hc, ih]
        rfl
      next =>
        rw [List.singleton_append, squeeze_of_word hc, ih, Bool.and_false]
        rfl

theorem collapseBlanks_collapseBlanks (text : List Char) :
    collapseBlanks (collapseBlanks text) = collapseBlanks text :=
  squeeze_squeeze text false false

theorem visible_squeeze (text : List Char) (started pending : Bool) :
    visible (squeeze text started pending) = visible text := by
  induction text generalizing started pending with
  | nil => rfl
  | cons c text ih =>
    cases hc : isBlank c with
    | true => rw [squeeze_of_blank hc, ih, visible_cons_of_blank hc]
    | false =>
      rw [squeeze_of_word hc, visible_cons_of_not_blank hc, visible_append, ih]
      split
      · rw [visible_cons_of_blank isBlank_space, visible_cons_of_not_blank hc]
        rfl
      · rw [visible_cons_of_not_blank hc]
        rfl

/-- Collapsing adds nothing but spaces. -/
theorem esc_not_mem_collapseBlanks {text : List Char} (h : Escape.esc ∉ text) :
    Escape.esc ∉ collapseBlanks text := by
  intro hmem
  have hword : (!isBlank Escape.esc) = true := by decide
  have hseen : Escape.esc ∈ visible (collapseBlanks text) := List.mem_filter.mpr ⟨hmem, hword⟩
  rw [collapseBlanks, visible_squeeze] at hseen
  exact h (List.mem_filter.mp hseen).1

/-! ## Cleaning -/

theorem esc_not_mem_forSummary (text : List Char) : Escape.esc ∉ forSummary text :=
  esc_not_mem_collapseBlanks (Escape.esc_not_mem_strip text)

/-- **The cleaners agree on words.** If every carriage return left after stripping has a line feed
behind it, a text has the words that it has when cleaned for the transcript first. Cleaning for a
summary does all it can at once: it leaves no escape, of the blanks only single spaces between
words, and everything else that stripping leaves, in order. -/
theorem cleaners_agree (text : List Char) :
    (ReturnsEndLines (Escape.strip text) →
        forSummary (forTranscript text) = forSummary text) ∧
      forSummary (forSummary text) = forSummary text ∧
      Escape.esc ∉ forSummary text ∧ SingleSpaced (forSummary text) ∧
      visible (forSummary text) = visible (Escape.strip text) := by
  refine ⟨?_, ?_, ?_, ?_, ?_⟩
  · intro h
    have hbreaks (kept : List Char) : collapseBlanks (limitBreaks 0 kept) = collapseBlanks kept :=
      squeeze_limitBreaks (fun hpos => absurd hpos (Nat.lt_irrefl 0)) kept false
    have hreturns : collapseBlanks ((Escape.strip text).filter (· ≠ '\r')) =
        collapseBlanks (Escape.strip text) := squeeze_filter_return h false false
    rw [forSummary, Escape.strip_of_esc_not_mem (normal_forTranscript text).noEscape, forTranscript,
      collapseBlanks_trim, hbreaks, hreturns, forSummary]
  · rw [forSummary, Escape.strip_of_esc_not_mem (esc_not_mem_forSummary text), forSummary,
      collapseBlanks_collapseBlanks]
  · exact esc_not_mem_forSummary text
  · exact singleSpaced_collapseBlanks (Escape.strip text)
  · exact visible_squeeze (Escape.strip text) false false

/-- Bold output with blanks of several kinds, and lines that end as on a terminal. -/
def bold : List Char := "\x1b[1mfix\x1b[0m  the\x1b[K\r\n\r\n \n\n\u00A0build\r\n".toList

theorem cleaners_agree_bold :
    ReturnsEndLines (Escape.strip bold) ∧ forTranscript bold ≠ bold ∧
      forSummary (forTranscript bold) = forSummary bold ∧
      forSummary bold = "fix the build".toList := by
  have h : ReturnsEndLines (Escape.strip bold) := by decide +kernel
  exact ⟨h, by decide +kernel, (cleaners_agree bold).1 h, by decide +kernel⟩

/-- A carriage return that ends no line: one cleaner joins the words it stands between. -/
example : forSummary (forTranscript "a\rb".toList) = ['a', 'b'] ∧
    forSummary "a\rb".toList = ['a', ' ', 'b'] := by
  decide +kernel

end TerminalSession.Text
