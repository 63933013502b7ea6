import TerminalSession.Text.Blank

/-!
# Laws of collapsing blanks

Of the blanks of a text, collapsing leaves single spaces between the words and nothing else
(`singleSpaced_collapseBlanks`).

A text that stands in another is collapsed there as it is by itself, up to a space in front of it and
one behind: what has been read before it decides only if its first word is the first one and if there
were blanks before that. So the collapsed text stands in the other one, collapsed
(`collapseBlanks_infix`), also where a run of blanks goes on over its ends.
-/

set_option autoImplicit false

namespace TerminalSession.Text

theorem squeeze_of_blank {c : Char} (hc : isBlank c = true) (text : List Char)
    (started pending : Bool) : squeeze (c :: text) started pending = squeeze text started true := by
  rw [squeeze, if_pos hc]

theorem squeeze_of_word {c : Char} (hc : isBlank c = false) (text : List Char)
    (started pending : Bool) :
    squeeze (c :: text) started pending =
      (if started && pending then [' ', c] else [c]) ++ squeeze text true false := by
  rw [squeeze, if_neg (ne_true_of_eq_false hc)]

/-! ## What is left of the blanks -/

/-- A text whose only blanks are single spaces on its inside. -/
structure SingleSpaced (text : List Char) : Prop where
  first : ∀ c ∈ text.head?, isBlank c = false
  last : ∀ c ∈ text.getLast?, isBlank c = false
  spaces : ∀ c ∈ text, isBlank c = true → c = ' '
  single : ¬[' ', ' '] <:+: text

theorem isBlank_space : isBlank ' ' = true := by decide

theorem singleSpaced_nil : SingleSpaced [] where
  first := nofun
  last := nofun
  spaces := nofun
  single h := absurd h.length_le (by decide)

theorem singleSpaced_singleton {c : Char} (hc : isBlank c = false) : SingleSpaced [c] where
  first d hd := Option.some.inj hd ▸ hc
  last d hd := Option.some.inj hd ▸ hc
  spaces d hd hblank := by
    rw [List.mem_singleton.mp hd, hc] at hblank
    cases hblank
  single h := absurd h.length_le (Nat.not_succ_le_self 1)

/-- A word goes on. -/
theorem SingleSpaced.cons {c d : Char} {text : List Char} (h : SingleSpaced (d :: text))
    (hc : isBlank c = false) : SingleSpaced (c :: d :: text) where
  first b hb := Option.some.inj hb ▸ hc
  last := by
    rw [List.getLast?_cons_cons]
    exact h.last
  spaces b hb hblank := by
    rcases List.mem_cons.mp hb with rfl | hb
    · rw [hc] at hblank
      cases hblank
    · exact h.spaces b hb hblank
  single hinfix := by
    rcases List.infix_cons_iff.mp hinfix with hfront | hin
    · rw [← (List.cons_prefix_cons.mp hfront).1, isBlank_space] at hc
      cases hc
    · exact h.single hin

/-- Another word begins. -/
theorem SingleSpaced.cons_space {c d : Char} {text : List Char} (h : SingleSpaced (d :: text))
    (hc : isBlank c = false) : SingleSpaced (c :: ' ' :: d :: text) where
  first b hb := Option.some.inj hb ▸ hc
  last := by
    rw [List.getLast?_cons_cons, List.getLast?_cons_cons]
    exact h.last
  spaces b hb hblank := by
    rcases List.mem_cons.mp hb with rfl | hb
    · rw [hc] at hblank
      cases hblank
    · rcases List.mem_cons.mp hb with rfl | hb
      · rfl
      · exact h.spaces b hb hblank
  single hinfix := by
    have hd : isBlank d = false := h.first d rfl
    rcases List.infix_cons_iff.mp hinfix with hfront | hin
    · rw [← (List.cons_prefix_cons.mp hfront).1, isBlank_space] at hc
      cases hc
    · rcases List.infix_cons_iff.mp hin with hfront | hin
      · rw [← (List.cons_prefix_cons.mp (List.cons_prefix_cons.mp hfront).2).1, isBlank_space] at hd
        cases hd
      · exact h.single hin

/-- What follows the first character of a word is spaced by single spaces, with that character. -/
theorem singleSpaced_cons_squeeze {c : Char} (hc : isBlank c = false) (text : List Char)
    (pending : Bool) : SingleSpaced (c :: squeeze text true pending) := by
  induction text generalizing c pending with
  | nil => exact singleSpaced_singleton hc
  | cons d text ih =>
    cases hd : isBlank d with
    | true =>
      rw [squeeze_of_blank hd]
      exact ih hc true
    | false =>
      rw [squeeze_of_word hd]
      cases pending with
      | true => exact (ih hd false).cons_space hc
      | false => exact (ih hd false).cons hc

/-- **Collapsing leaves single spaces between words.** -/
theorem singleSpaced_collapseBlanks (text : List Char) : SingleSpaced (collapseBlanks text) := by
  have hsqueeze (pending : Bool) : SingleSpaced (squeeze text false pending) := by
    induction text generalizing pending with
    | nil => exact singleSpaced_nil
    | cons c text ih =>
      cases hc : isBlank c with
      | true =>
        rw [squeeze_of_blank hc]
        exact ih true
      | false =>
        rw [squeeze_of_word hc]
        exact singleSpaced_cons_squeeze hc text false
  exact hsqueeze false

/-! ## Texts within texts -/

/-- What follows a text is collapsed by itself, from where the text leaves off. -/
theorem exists_squeeze_append (text : List Char) (started pending : Bool) :
    ∃ started' pending', ∀ more, squeeze (text ++ more) started pending =
      squeeze text started pending ++ squeeze more started' pending' := by
  induction text generalizing started pending with
  | nil => exact ⟨started, pending, fun more => rfl⟩
  | cons c text ih =>
    cases hc : isBlank c with
    | true =>
      obtain ⟨started', pending', hmore⟩ := ih started true
      refine ⟨started', pending', fun more => ?_⟩
      rw [List.cons_append, squeeze_of_blank hc, squeeze_of_blank hc, hmore]
    | false =>
      obtain ⟨started', pending', hmore⟩ := ih true false
      refine ⟨started', pending', fun more => ?_⟩
      rw [List.cons_append, squeeze_of_word hc, squeeze_of_word hc, hmore, List.append_assoc]

/-- What comes before a text can put a space before its first word, and nothing more. -/
theorem squeeze_suffix (text : List Char) (started pending pending' : Bool) :
    squeeze text false pending' <:+ squeeze text started pending := by
  induction text generalizing pending pending' with
  | nil => exact List.suffix_refl []
  | cons c text ih =>
    cases hc : isBlank c with
    | true =>
      rw [squeeze_of_blank hc, squeeze_of_blank hc]
      exact ih true true
    | false =>
      rw [squeeze_of_word hc, squeeze_of_word hc, Bool.false_and, if_neg Bool.false_ne_true]
      split
      · exact List.suffix_cons ' ' _
      · exact List.suffix_refl _

/-- **A text that stands in another stands in it collapsed as well.** -/
theorem collapseBlanks_infix {text whole : List Char} (h : text <:+: whole) :
    collapseBlanks text <:+: collapseBlanks whole := by
  obtain ⟨before, after, rfl⟩ := h
  obtain ⟨started, pending, hbefore⟩ := exists_squeeze_append before false false
  obtain ⟨started', pending', htext⟩ := exists_squeeze_append text started pending
  obtain ⟨space, hspace⟩ := squeeze_suffix text started pending false
  refine ⟨squeeze before false false ++ space, squeeze after started' pending', ?_⟩
  rw [collapseBlanks, collapseBlanks, List.append_assoc before, hbefore, htext, ← hspace]
  simp only [List.append_assoc]

end TerminalSession.Text
