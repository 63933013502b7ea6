import TerminalSession.Text.Blank

/-!
# Laws of trimming

What trimming leaves stands in the text as it is (`trim_infix`) and neither begins nor ends with a
blank (`head?_trim`, `getLast?_trim`). A text of which this holds already is left alone
(`trim_eq_self`), and blanks put at the end of a text go with those before them
(`trim_append_singleton`). So what trimming leaves is what the text comes to when the blanks on both
sides are not counted, and it is the only text of which this can be said (`trim_eq_iff`).
-/

set_option autoImplicit false

namespace TerminalSession.Text

/-! ## What is left -/

theorem trimStart_suffix (text : List Char) : trimStart text <:+ text :=
  List.dropWhile_suffix isBlank

/-- What is taken off the beginning is blank. -/
theorem exists_trimStart (text : List Char) :
    ∃ blanks, (∀ b ∈ blanks, isBlank b = true) ∧ text = blanks ++ trimStart text := by
  refine ⟨text.takeWhile isBlank, ?_, ?_⟩
  · exact List.all_eq_true.mp List.all_takeWhile
  · exact List.takeWhile_append_dropWhile.symm

theorem trimEnd_eq (text : List Char) : trimEnd text = (trimStart text.reverse).reverse := rfl

theorem trimEnd_isPrefix (text : List Char) : trimEnd text <+: text := by
  have h := trimStart_suffix text.reverse
  rw [← List.reverse_prefix, List.reverse_reverse] at h
  exact h

/-- What is taken off the end is blank. -/
theorem exists_trimEnd (text : List Char) :
    ∃ blanks, (∀ b ∈ blanks, isBlank b = true) ∧ text = trimEnd text ++ blanks := by
  obtain ⟨blanks, hblanks, htext⟩ := exists_trimStart text.reverse
  refine ⟨blanks.reverse, fun b hb => hblanks b (List.mem_reverse.mp hb), ?_⟩
  rw [trimEnd_eq, ← List.reverse_append, ← htext, List.reverse_reverse]

theorem trim_infix (text : List Char) : trim text <:+: text :=
  (trimEnd_isPrefix _).isInfix.trans (trimStart_suffix text).isInfix

theorem head?_trimStart (text : List Char) : ∀ c ∈ (trimStart text).head?, isBlank c = false := by
  intro c hc
  have hfirst : (text.dropWhile isBlank).head? = some c := hc
  have hnot := List.head?_dropWhile_not isBlank text
  rw [hfirst] at hnot
  exact hnot

theorem getLast?_trimEnd (text : List Char) : ∀ c ∈ (trimEnd text).getLast?, isBlank c = false := by
  intro c hc
  rw [trimEnd_eq, List.getLast?_reverse] at hc
  exact head?_trimStart text.reverse c hc

/-- Trimming the end takes no character from the beginning, unless it takes them all. -/
theorem head?_trim (text : List Char) : ∀ c ∈ (trim text).head?, isBlank c = false := by
  intro c hc
  obtain ⟨rest, hrest⟩ := trimEnd_isPrefix (trimStart text)
  have hfirst : (trimEnd (trimStart text)).head? = some c := hc
  apply head?_trimStart text c
  rw [← hrest, List.head?_append, hfirst]
  rfl

theorem getLast?_trim (text : List Char) : ∀ c ∈ (trim text).getLast?, isBlank c = false :=
  getLast?_trimEnd (trimStart text)

/-! ## What is trimmed already -/

theorem trimStart_eq_self {text : List Char} (h : ∀ c ∈ text.head?, isBlank c = false) :
    trimStart text = text := by
  cases text with
  | nil => rfl
  | cons c text => exact List.dropWhile_cons_of_neg (ne_true_of_eq_false (h c rfl))

/-- A text that neither begins nor ends with a blank is trimmed already. -/
theorem trim_eq_self {text : List Char} (hfirst : ∀ c ∈ text.head?, isBlank c = false)
    (hlast : ∀ c ∈ text.getLast?, isBlank c = false) : trim text = text := by
  have hreverse : trimStart text.reverse = text.reverse := by
    apply trimStart_eq_self
    rwa [List.head?_reverse]
  rw [trim, trimStart_eq_self hfirst, trimEnd_eq, hreverse, List.reverse_reverse]

/-! ## Blanks at the end -/

/-- A blank at the end is trimmed with those before it. -/
theorem trim_append_singleton {b : Char} (hb : isBlank b = true) (text : List Char) :
    trim (text ++ [b]) = trim text := by
  have hend : trimEnd (trimStart text ++ [b]) = trimEnd (trimStart text) := by
    rw [trimEnd, trimEnd, List.reverse_append, List.reverse_singleton, List.singleton_append,
      List.dropWhile_cons_of_pos hb]
  rw [trim, trim, ← hend, trimStart, trimStart, List.dropWhile_append]
  split
  next h =>
    rw [List.isEmpty_iff.mp h, List.dropWhile_cons_of_pos hb, List.dropWhile_nil, List.nil_append,
      trimEnd, trimEnd, List.reverse_singleton, List.dropWhile_cons_of_pos hb]
    rfl
  next => rfl

/-! ## Blanks on both sides -/

theorem trimStart_append {blanks : List Char} (h : ∀ b ∈ blanks, isBlank b = true)
    (text : List Char) : trimStart (blanks ++ text) = trimStart text :=
  List.dropWhile_append_of_pos h

theorem trim_append {blanks : List Char} (h : ∀ b ∈ blanks, isBlank b = true)
    (text : List Char) : trim (text ++ blanks) = trim text := by
  induction blanks generalizing text with
  | nil => rw [List.append_nil]
  | cons b blanks ih =>
    obtain ⟨hb, hblanks⟩ := List.forall_mem_cons.mp h
    rw [List.append_cons, ih hblanks, trim_append_singleton hb]

/-- A text that is another one with blanks before and behind it. The other has none at its ends. -/
structure Padded (inner text : List Char) : Prop where
  head : ∀ c ∈ inner.head?, isBlank c = false
  last : ∀ c ∈ inner.getLast?, isBlank c = false
  blanks : ∃ before after, (∀ b ∈ before, isBlank b = true) ∧ (∀ b ∈ after, isBlank b = true) ∧
    text = before ++ inner ++ after

theorem Padded.refl {text : List Char} (hhead : ∀ c ∈ text.head?, isBlank c = false)
    (hlast : ∀ c ∈ text.getLast?, isBlank c = false) : Padded text text :=
  ⟨hhead, hlast, [], [], List.forall_mem_nil _, List.forall_mem_nil _, (List.append_nil text).symm⟩

theorem Padded.subset {inner text : List Char} (h : Padded inner text) : inner ⊆ text := by
  obtain ⟨before, after, -, -, rfl⟩ := h.blanks
  intro c hc
  exact List.mem_append_left _ (List.mem_append_right _ hc)

theorem padded_trim (text : List Char) : Padded (trim text) text := by
  obtain ⟨before, hbefore, htext⟩ := exists_trimStart text
  obtain ⟨after, hafter, hrest⟩ := exists_trimEnd (trimStart text)
  refine ⟨head?_trim text, getLast?_trim text, before, after, hbefore, hafter, ?_⟩
  rw [List.append_assoc, trim, ← hrest, ← htext]

/-- **What trimming leaves is the text without the blanks before and behind it.** -/
theorem trim_eq_iff {inner text : List Char} : trim text = inner ↔ Padded inner text := by
  constructor
  · rintro rfl
    exact padded_trim text
  · rintro ⟨hhead, hlast, before, after, hbefore, hafter, rfl⟩
    rw [trim_append hafter, trim, trimStart_append hbefore, ← trim, trim_eq_self hhead hlast]

end TerminalSession.Text
