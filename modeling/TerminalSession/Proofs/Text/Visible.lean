import TerminalSession.Proofs.Escape.Removal
import TerminalSession.Text.Clean

/-!
# What is seen of a text

Cleaning a text for the transcript moves and drops blanks: it trims the ends, limits the empty lines
and takes the carriage returns out. `visible` is what is left when blanks are ignored, and cleaning
leaves it as stripping the escape sequences left it (`visible_forTranscript`).

Which characters are seen is all that is decided of it here, not where the blanks between them stand.
Blanks or not, cleaning only ever leaves characters out (`forTranscript_sublist`).
-/

set_option autoImplicit false

namespace TerminalSession.Text

/-- The characters of a text that are not blank. -/
def visible (text : List Char) : List Char := text.filter fun c => !isBlank c

@[simp] theorem visible_nil : visible [] = [] := rfl

theorem visible_append (text more : List Char) :
    visible (text ++ more) = visible text ++ visible more :=
  List.filter_append text more

theorem visible_cons_of_blank {c : Char} (h : isBlank c = true) (text : List Char) :
    visible (c :: text) = visible text :=
  List.filter_cons_of_neg (by simp only [h, Bool.not_true, Bool.false_eq_true, not_false_eq_true])

theorem visible_cons_of_not_blank {c : Char} (h : isBlank c = false) (text : List Char) :
    visible (c :: text) = c :: visible text :=
  List.filter_cons_of_pos (by simp only [h, Bool.not_false])

theorem visible_cons_congr (c : Char) {text more : List Char} (h : visible text = visible more) :
    visible (c :: text) = visible (c :: more) := by
  cases hc : isBlank c with
  | true => rw [visible_cons_of_blank hc, visible_cons_of_blank hc, h]
  | false => rw [visible_cons_of_not_blank hc, visible_cons_of_not_blank hc, h]

theorem visible_reverse (text : List Char) : visible text.reverse = (visible text).reverse :=
  List.filter_reverse

theorem visible_trimStart (text : List Char) : visible (trimStart text) = visible text := by
  induction text with
  | nil => rfl
  | cons c text ih =>
    cases hc : isBlank c with
    | true =>
      rw [trimStart, List.dropWhile_cons_of_pos hc, visible_cons_of_blank hc, ← ih, trimStart]
    | false => rw [trimStart, List.dropWhile_cons_of_neg (ne_true_of_eq_false hc)]

theorem visible_trimEnd (text : List Char) : visible (trimEnd text) = visible text := by
  have h := visible_trimStart text.reverse
  rw [trimEnd, visible_reverse]
  rw [trimStart, visible_reverse] at h
  rw [h, List.reverse_reverse]

theorem visible_trim (text : List Char) : visible (trim text) = visible text := by
  rw [trim, visible_trimEnd, visible_trimStart]

theorem visible_limitBreaks (run : Nat) (text : List Char) :
    visible (limitBreaks run text) = visible text := by
  induction text generalizing run with
  | nil => rfl
  | cons c text ih =>
    unfold limitBreaks
    split
    next hc =>
      have hb : isBlank c = true := by
        rw [hc]
        decide
      split
      · exact visible_cons_congr c (ih _)
      · rw [ih, visible_cons_of_blank hb]
    next hc => exact visible_cons_congr c (ih _)

/-- Taking out a kind of blank is not seen. -/
theorem visible_filter {keep : Char → Bool} (h : ∀ c, keep c = false → isBlank c = true)
    (text : List Char) : visible (text.filter keep) = visible text := by
  induction text with
  | nil => rfl
  | cons c text ih =>
    cases hc : keep c with
    | true =>
      rw [List.filter_cons_of_pos hc]
      exact visible_cons_congr c ih
    | false =>
      rw [List.filter_cons_of_neg (ne_true_of_eq_false hc), ih, visible_cons_of_blank (h c hc)]

/-- **Cleaning for the transcript shows what stripping leaves.** -/
theorem visible_forTranscript (text : List Char) :
    visible (forTranscript text) = visible (Escape.strip text) := by
  have hreturn : ∀ c : Char, decide (c ≠ '\r') = false → isBlank c = true := by
    intro c hc
    rw [Decidable.not_not.mp (of_decide_eq_false hc)]
    decide
  rw [forTranscript, visible_trim, visible_limitBreaks, visible_filter hreturn]

/-! ## Nothing is added -/

theorem trimStart_sublist (text : List Char) : (trimStart text).Sublist text :=
  List.dropWhile_sublist isBlank

theorem trimEnd_sublist (text : List Char) : (trimEnd text).Sublist text := by
  have h := (trimStart_sublist text.reverse).reverse
  rwa [List.reverse_reverse] at h

theorem limitBreaks_sublist (run : Nat) (text : List Char) :
    (limitBreaks run text).Sublist text := by
  induction text generalizing run with
  | nil => exact .slnil
  | cons c text ih =>
    unfold limitBreaks
    split
    · split
      · exact (ih _).cons_cons c
      · exact (ih _).cons c
    · exact (ih _).cons_cons c

/-- Cleaning only leaves characters out. -/
theorem forTranscript_sublist (text : List Char) : (forTranscript text).Sublist text := by
  have hkept : ((Escape.strip text).filter (· ≠ '\r')).Sublist text :=
    List.filter_sublist.trans (Escape.strip_sublist text)
  have hlimited := (limitBreaks_sublist 0 _).trans hkept
  exact (trimEnd_sublist _).trans ((trimStart_sublist _).trans hlimited)

end TerminalSession.Text
