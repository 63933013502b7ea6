import TerminalSession.Proofs.Escape.Sequence

/-!
# What stripping removes

`Proofs/Escape/Sequence` has it that what the grammar writes is recognised. This is the other
direction: what is recognised anywhere, in a text of any kind, is a sequence of the grammar
(`exists_sequence`). So stripping takes out whole sequences, and escapes that begin none, and never
anything else: what is left is left in order (`strip_sublist`), it has no escape in it
(`esc_not_mem_strip`), and there is nothing more to strip.

Where in a malformed text the sequences are found is not said; they are looked for from the left.
-/

set_option autoImplicit false

namespace TerminalSession.Escape

/-! ## What is recognised is of the grammar -/

theorem afterControl_eq_some {text rest : List Char} (h : afterControl text = some rest) :
    ∃ parameters final, (∀ c ∈ parameters, isParameter c = true) ∧ isLetter final = true ∧
      text = parameters ++ final :: rest := by
  have hsplit : text.takeWhile isParameter ++ text.dropWhile isParameter = text :=
    List.takeWhile_append_dropWhile
  rw [afterControl] at h
  split at h
  next final behind hbehind =>
    split at h
    next hfinal =>
      cases h
      rw [hbehind] at hsplit
      exact ⟨_, final, List.all_eq_true.mp List.all_takeWhile, hfinal, hsplit.symm⟩
    next => cases h
  next => cases h

theorem afterCommand_eq_some {text rest : List Char} (h : afterCommand text = some rest) :
    ∃ (body : List Char) (terminator : Terminator), (∀ c ∈ body, c ≠ bell ∧ c ≠ esc) ∧
      text = body ++ (terminator.text ++ rest) := by
  have hsplit : text.takeWhile (fun c => c != bell && c != esc) ++
      text.dropWhile (fun c => c != bell && c != esc) = text :=
    List.takeWhile_append_dropWhile
  have hbody : ∀ c ∈ text.takeWhile (fun c => c != bell && c != esc), c ≠ bell ∧ c ≠ esc := by
    intro c hc
    have hpass := List.all_eq_true.mp List.all_takeWhile c hc
    rwa [Bool.and_eq_true, bne_iff_ne, bne_iff_ne] at hpass
  have hhead := List.head?_dropWhile_not (fun c => c != bell && c != esc) text
  rw [afterCommand] at h
  split at h
  next c behind hbehind =>
    rw [hbehind] at hsplit hhead
    split at h
    next hbell =>
      cases h
      rw [hbell] at hsplit
      exact ⟨_, .bell, hbody, hsplit.symm⟩
    next hbell =>
      -- The body ends before a bell or an escape, and this is not a bell.
      have hesc : c = esc := by
        have hstop : (c != bell && c != esc) = false := hhead
        rw [Bool.and_eq_false_iff, bne_eq_false_iff_eq, bne_eq_false_iff_eq] at hstop
        exact hstop.resolve_left hbell
      rw [hesc] at hsplit
      split at h
      next =>
        cases h
        exact ⟨_, .string, hbody, hsplit.symm⟩
      next => cases h
  next => cases h

theorem afterCharset_eq_some {text rest : List Char} (h : afterCharset text = some rest) :
    ∃ name, isCharset name = true ∧ text = name :: rest := by
  cases text with
  | nil => cases h
  | cons name behind =>
    rw [afterCharset] at h
    split at h
    next hname =>
      cases h
      exact ⟨name, hname, rfl⟩
    next => cases h

/-- **What is recognised behind an escape is the body of a sequence.** -/
theorem exists_sequence {text rest : List Char} (h : afterSequence? text = some rest) :
    ∃ s : Sequence, text = s.body ++ rest := by
  cases text with
  | nil => cases h
  | cons c text =>
    rw [afterSequence?] at h
    split at h
    next hc =>
      obtain ⟨parameters, final, hparameters, hfinal, rfl⟩ := afterControl_eq_some h
      refine ⟨.control parameters final hparameters hfinal, ?_⟩
      rw [hc, Sequence.body, List.append_assoc]
      rfl
    next =>
      split at h
      next hc =>
        obtain ⟨body, terminator, hbody, rfl⟩ := afterCommand_eq_some h
        refine ⟨.command body terminator hbody, ?_⟩
        rw [hc, Sequence.body, List.append_assoc]
        rfl
      next =>
        split at h
        next hc =>
          obtain ⟨name, hname, rfl⟩ := afterCharset_eq_some h
          have hopening : c = '(' ∨ c = ')' := by
            rwa [Bool.or_eq_true, decide_eq_true_eq, decide_eq_true_eq] at hc
          exact ⟨.charset c name hopening hname, rfl⟩
        next =>
          split at h
          next hc =>
            cases h
            exact ⟨.function c hc, rfl⟩
          next => cases h

/-! ## What is left -/

/-- Stripping goes on inside the text it came from. -/
theorem afterEscape_suffix (text : List Char) : afterEscape text <:+ text := by
  rw [afterEscape]
  cases h : afterSequence? text with
  | none => exact List.suffix_refl text
  | some rest =>
    obtain ⟨s, rfl⟩ := exists_sequence h
    exact List.suffix_append s.body rest

theorem esc_not_mem_strip (text : List Char) : esc ∉ strip text := by
  fun_induction strip text with
  | case1 => exact List.not_mem_nil
  | case2 rest ih => exact ih
  | case3 c rest hc ih => exact List.not_mem_cons_of_ne_of_not_mem (Ne.symm hc) ih

theorem strip_sublist (text : List Char) : (strip text).Sublist text := by
  fun_induction strip text with
  | case1 => exact List.Sublist.refl []
  | case2 rest ih => exact .cons esc (ih.trans (afterEscape_suffix rest).sublist)
  | case3 c rest hc ih => exact ih.cons_cons c

/-- **Stripping removes the sequences and nothing else.** Of well-formed output the texts are left,
whole and in order. Of any text whatever a part is left, in order and without an escape, and to strip
it again changes nothing. -/
theorem strip_removes_sequences :
    (∀ items : List Item, strip (render items) = meant items) ∧
      ∀ text : List Char, esc ∉ strip text ∧ (strip text).Sublist text ∧
        strip (strip text) = strip text := by
  refine ⟨strip_render, fun text => ⟨esc_not_mem_strip text, strip_sublist text, ?_⟩⟩
  refine strip_eq_self fun c hc heq => ?_
  exact esc_not_mem_strip text (heq ▸ hc)

end TerminalSession.Escape
