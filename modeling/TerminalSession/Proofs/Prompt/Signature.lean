import TerminalSession.Proofs.Text.Trim
import TerminalSession.Prompt

/-!
# The texts that read like a prompt

`Signature` says what a prompt looks like without saying how one is looked for: a text is put
together from parts, and some of them have to be there word for word. `isPrompt` goes over a text
from the left, skips as many blanks as there are, and looks for the end of a menu up to the end of
the line; `isPrompt_iff` says that it finds the signatures and nothing else.

Blanks at the end of a text make no difference. Each signature but the mark ends in a character that
is not blank, so it lies in the text itself or it is not there (`exists_rest_of_append`), and behind
a mark there may be blanks anyway. `isPrompt_signature` puts the two together.

## What this does NOT decide

Which programs write such texts, and whether they wait: any text that ends in a mark is a prompt.
-/

set_option autoImplicit false

namespace TerminalSession.Prompt

open TerminalSession.Text

/-- What a text looks like that reads like a prompt. -/
inductive Signature (text : List Char) : Prop
  /-- A mark is the last character but for blanks. -/
  | mark (before : List Char) (mark : Char) (blanks : List Char)
      (hmark : mark ∈ ['❯', '>', '$']) (hblanks : ∀ b ∈ blanks, isBlank b = true)
      (htext : text = before ++ [mark] ++ blanks)
  /-- A question mark, blanks, perhaps a parenthesis, and an answer. -/
  | question (before blanks opening : List Char) (answer : String) (after : List Char)
      (hblanks : ∀ b ∈ blanks, isBlank b = true) (hopening : opening = [] ∨ opening = ['('])
      (hanswer : answer ∈ ["yes", "no", "y/n"])
      (htext : text = before ++ ['?'] ++ blanks ++ opening ++ answer.toList ++ after)
  /-- The two entries of a menu, on one line. -/
  | menu (before between after : List Char) (hline : '\n' ∉ between)
      (htext : text = before ++ "(Y)es".toList ++ between ++ "(N)o".toList ++ after)
  /-- A phrase, anywhere. -/
  | phrase (before : List Char) (phrase : String) (after : List Char)
      (hphrase : phrase ∈ ["Do you want to proceed", "Press Enter to continue", "[Y/n]",
        "waiting for input", "waiting for response"])
      (htext : text = before ++ phrase.toList ++ after)

/-! ## Looking from every position on -/

theorem somewhere_iff {test : List Char → Bool} {text : List Char} :
    somewhere test text = true ↔ ∃ before here, text = before ++ here ∧ test here = true := by
  induction text with
  | nil =>
    rw [somewhere]
    constructor
    · intro h
      exact ⟨[], [], rfl, h⟩
    · rintro ⟨before, here, htext, h⟩
      obtain ⟨-, rfl⟩ := List.append_eq_nil_iff.mp htext.symm
      exact h
  | cons c text ih =>
    rw [somewhere, Bool.or_eq_true, ih]
    constructor
    · rintro (h | ⟨before, here, rfl, h⟩)
      · exact ⟨[], c :: text, rfl, h⟩
      · exact ⟨c :: before, here, rfl, h⟩
    · rintro ⟨before, here, htext, h⟩
      rcases List.cons_eq_append_iff.mp htext with ⟨-, rfl⟩ | ⟨before, -, hrest⟩
      · exact .inl h
      · exact .inr ⟨before, here, hrest, h⟩

theorem isPrefixOf_iff {front text : List Char} :
    front.isPrefixOf text = true ↔ ∃ after, text = front ++ after := by
  rw [List.isPrefixOf_iff_prefix]
  exact exists_congr fun _ => eq_comm

theorem mentions_iff {phrase : String} {text : List Char} :
    mentions phrase text = true ↔ ∃ before after, text = before ++ phrase.toList ++ after := by
  rw [mentions, somewhere_iff]
  constructor
  · rintro ⟨before, here, rfl, h⟩
    obtain ⟨after, rfl⟩ := isPrefixOf_iff.mp h
    exact ⟨before, after, (List.append_assoc _ _ _).symm⟩
  · rintro ⟨before, after, rfl⟩
    exact ⟨before, phrase.toList ++ after, List.append_assoc _ _ _, isPrefixOf_iff.mpr ⟨after, rfl⟩⟩

/-! ## A mark at the end -/

theorem isBlank_mark {mark : Char} (h : mark ∈ marks) : isBlank mark = false := by
  simp only [marks, List.mem_cons, List.not_mem_nil, or_false] at h
  rcases h with rfl | rfl | rfl
  all_goals decide

theorem endsInMark_iff {text : List Char} :
    endsInMark text = true ↔ ∃ before mark blanks, mark ∈ marks ∧
      (∀ b ∈ blanks, isBlank b = true) ∧ text = before ++ [mark] ++ blanks := by
  rw [endsInMark]
  constructor
  · intro h
    obtain ⟨blanks, hblanks, hsplit⟩ := exists_trimStart text.reverse
    split at h
    next mark before hbefore =>
      have hreverse : text.reverse = blanks ++ mark :: before := hsplit.trans (congrArg _ hbefore)
      refine ⟨before.reverse, mark, blanks.reverse, List.contains_iff_mem.mp h, ?_, ?_⟩
      · intro b hb
        exact hblanks b (List.mem_reverse.mp hb)
      · rw [List.reverse_eq_iff.mp hreverse, List.reverse_append, List.reverse_cons]
    next => cases h
  · rintro ⟨before, mark, blanks, hmark, hblanks, rfl⟩
    have hvisible : ¬isBlank mark = true := ne_true_of_eq_false (isBlank_mark hmark)
    have hreverse : (before ++ [mark] ++ blanks).reverse.dropWhile isBlank =
        mark :: before.reverse := by
      rw [List.reverse_append, List.reverse_concat, List.dropWhile_append_of_pos,
        List.dropWhile_cons_of_neg hvisible]
      intro b hb
      exact hblanks b (List.mem_reverse.mp hb)
    rw [hreverse]
    exact List.contains_iff_mem.mpr hmark

/-! ## A question -/

theorem exists_first_of_answer {answer : String} (h : answer ∈ answers) :
    ∃ first rest, answer.toList = first :: rest ∧ first ≠ '(' ∧ isBlank first = false := by
  simp only [answers, List.mem_cons, List.not_mem_nil, or_false] at h
  rcases h with rfl | rfl | rfl
  all_goals exact ⟨_, _, rfl, by decide, by decide⟩

/-- An answer is on offer behind a parenthesis, or where there is none. -/
theorem offersAnswer_iff {text : List Char} :
    offersAnswer text = true ↔ ∃ opening answer after, (opening = [] ∨ opening = ['(']) ∧
      answer ∈ answers ∧ text = opening ++ answer.toList ++ after := by
  have hany (offered : List Char) : (answers.any (·.toList.isPrefixOf offered)) = true ↔
      ∃ answer after, answer ∈ answers ∧ offered = answer.toList ++ after := by
    simp only [List.any_eq_true, isPrefixOf_iff, exists_and_left]
  unfold offersAnswer
  rw [hany]
  split
  next offered =>
    constructor
    · rintro ⟨answer, after, hanswer, rfl⟩
      exact ⟨['('], answer, after, .inr rfl, hanswer, rfl⟩
    · rintro ⟨opening, answer, after, rfl | rfl, hanswer, htext⟩
      · -- The text begins with the parenthesis, and no answer does.
        obtain ⟨first, rest, hcons, hfirst, -⟩ := exists_first_of_answer hanswer
        rw [hcons] at htext
        exact absurd (List.cons_eq_cons.mp htext).1.symm hfirst
      · exact ⟨answer, after, hanswer, (List.cons_eq_cons.mp htext).2⟩
  next hnone =>
    constructor
    · rintro ⟨answer, after, hanswer, rfl⟩
      exact ⟨[], answer, after, .inl rfl, hanswer, rfl⟩
    · rintro ⟨opening, answer, after, rfl | rfl, hanswer, htext⟩
      · exact ⟨answer, after, hanswer, htext⟩
      · exact absurd htext (hnone _)

/-- What an answer is offered with does not begin with a blank, so skipping blanks stops there. -/
theorem trimStart_offered {opening : List Char} (hopening : opening = [] ∨ opening = ['('])
    {answer : String} (hanswer : answer ∈ answers) (after : List Char) :
    trimStart (opening ++ answer.toList ++ after) = opening ++ answer.toList ++ after := by
  apply trimStart_eq_self
  intro c hc
  rcases hopening with rfl | rfl
  · obtain ⟨first, rest, hcons, -, hfirst⟩ := exists_first_of_answer hanswer
    rw [hcons] at hc
    rw [← Option.some.inj hc]
    exact hfirst
  · rw [← Option.some.inj hc]
    decide

theorem asksYesOrNo_iff {text : List Char} :
    asksYesOrNo text = true ↔ ∃ before blanks opening answer after,
      (∀ b ∈ blanks, isBlank b = true) ∧ (opening = [] ∨ opening = ['(']) ∧ answer ∈ answers ∧
      text = before ++ ['?'] ++ blanks ++ opening ++ answer.toList ++ after := by
  rw [asksYesOrNo, somewhere_iff]
  constructor
  · rintro ⟨before, here, rfl, h⟩
    split at h
    next rest =>
      obtain ⟨blanks, hblanks, hsplit⟩ := exists_trimStart rest
      obtain ⟨opening, answer, after, hopening, hanswer, htrim⟩ := offersAnswer_iff.mp h
      refine ⟨before, blanks, opening, answer, after, hblanks, hopening, hanswer, ?_⟩
      rw [hsplit, htrim]
      simp only [List.append_assoc, List.cons_append, List.nil_append]
    next => cases h
  · rintro ⟨before, blanks, opening, answer, after, hblanks, hopening, hanswer, rfl⟩
    refine ⟨before, '?' :: (blanks ++ (opening ++ answer.toList ++ after)), ?_, ?_⟩
    · simp only [List.append_assoc, List.cons_append, List.nil_append]
    · have htrim : trimStart (blanks ++ (opening ++ answer.toList ++ after)) =
          opening ++ answer.toList ++ after := by
        rw [trimStart_append hblanks]
        exact trimStart_offered hopening hanswer after
      show offersAnswer (trimStart _) = true
      rw [htrim]
      exact offersAnswer_iff.mpr ⟨opening, answer, after, hopening, hanswer, rfl⟩

/-! ## A menu -/

/-- What is looked for up to the end of the line. -/
theorem mentions_takeWhile_iff {phrase : String} (hphrase : '\n' ∉ phrase.toList)
    {text : List Char} :
    mentions phrase (text.takeWhile (· ≠ '\n')) = true ↔
      ∃ between after, '\n' ∉ between ∧ text = between ++ phrase.toList ++ after := by
  rw [mentions_iff]
  constructor
  · rintro ⟨between, after, hline⟩
    have hsplit : text.takeWhile (· ≠ '\n') ++ text.dropWhile (· ≠ '\n') = text :=
      List.takeWhile_append_dropWhile
    refine ⟨between, after ++ text.dropWhile (· ≠ '\n'), ?_, ?_⟩
    · intro hbreak
      have hmem : '\n' ∈ text.takeWhile (· ≠ '\n') := by
        rw [hline, List.append_assoc]
        exact List.mem_append_left _ hbreak
      have hne := List.all_eq_true.mp List.all_takeWhile '\n' hmem
      exact of_decide_eq_true hne rfl
    · rw [← List.append_assoc, ← hline, hsplit]
  · rintro ⟨between, after, hline, rfl⟩
    have hpass {part : List Char} (h : '\n' ∉ part) : ∀ c ∈ part, decide (c ≠ '\n') = true := by
      intro c hc
      exact decide_eq_true fun heq => h (heq ▸ hc)
    refine ⟨between, after.takeWhile (· ≠ '\n'), ?_⟩
    rw [List.append_assoc, List.takeWhile_append_of_pos (hpass hline),
      List.takeWhile_append_of_pos (hpass hphrase), List.append_assoc]

theorem showsMenu_iff {text : List Char} :
    showsMenu text = true ↔ ∃ before between after, '\n' ∉ between ∧
      text = before ++ "(Y)es".toList ++ between ++ "(N)o".toList ++ after := by
  rw [showsMenu, somewhere_iff]
  constructor
  · rintro ⟨before, here, rfl, h⟩
    obtain ⟨hfirst, hsecond⟩ := Bool.and_eq_true_iff.mp h
    obtain ⟨rest, rfl⟩ := isPrefixOf_iff.mp hfirst
    obtain ⟨between, after, hline, hrest⟩ := (mentions_takeWhile_iff (by decide)).mp hsecond
    have hbehind : rest = between ++ "(N)o".toList ++ after := hrest
    refine ⟨before, between, after, hline, ?_⟩
    rw [hbehind]
    simp only [List.append_assoc]
  · rintro ⟨before, between, after, hline, rfl⟩
    refine ⟨before, "(Y)es".toList ++ (between ++ "(N)o".toList ++ after), ?_, ?_⟩
    · simp only [List.append_assoc]
    · apply Bool.and_eq_true_iff.mpr
      constructor
      · exact isPrefixOf_iff.mpr ⟨_, rfl⟩
      · exact (mentions_takeWhile_iff (by decide)).mpr ⟨between, after, hline, rfl⟩

/-- **The texts that read like a prompt are those with a signature.** -/
theorem isPrompt_iff {text : List Char} : isPrompt text = true ↔ Signature text := by
  rw [isPrompt, Bool.or_eq_true, Bool.or_eq_true, Bool.or_eq_true, List.any_eq_true]
  constructor
  · rintro (((h | h) | h) | ⟨phrase, hphrase, h⟩)
    · obtain ⟨before, mark, blanks, hmark, hblanks, htext⟩ := endsInMark_iff.mp h
      exact .mark before mark blanks hmark hblanks htext
    · obtain ⟨before, blanks, opening, answer, after, hblanks, hopening, hanswer, htext⟩ :=
        asksYesOrNo_iff.mp h
      exact .question before blanks opening answer after hblanks hopening hanswer htext
    · obtain ⟨before, between, after, hline, htext⟩ := showsMenu_iff.mp h
      exact .menu before between after hline htext
    · obtain ⟨before, after, htext⟩ := mentions_iff.mp h
      exact .phrase before phrase after hphrase htext
  · intro h
    cases h with
    | mark before mark blanks hmark hblanks htext =>
      exact .inl (.inl (.inl (endsInMark_iff.mpr ⟨before, mark, blanks, hmark, hblanks, htext⟩)))
    | question before blanks opening answer after hblanks hopening hanswer htext =>
      exact .inl (.inl (.inr (asksYesOrNo_iff.mpr
        ⟨before, blanks, opening, answer, after, hblanks, hopening, hanswer, htext⟩)))
    | menu before between after hline htext =>
      exact .inl (.inr (showsMenu_iff.mpr ⟨before, between, after, hline, htext⟩))
    | phrase before phrase after hphrase htext =>
      exact .inr ⟨phrase, hphrase, mentions_iff.mpr ⟨before, after, htext⟩⟩

/-! ## Blanks at the end -/

/-- The last character of a text is not blank. -/
def endsVisible (text : List Char) : Bool := text.getLast?.any fun c => !isBlank c

theorem endsVisible_append (before : List Char) {text : List Char} (h : endsVisible text = true) :
    endsVisible (before ++ text) = true := by
  rw [endsVisible, List.getLast?_append]
  rw [endsVisible] at h
  cases hlast : text.getLast? with
  | none =>
    rw [hlast] at h
    cases h
  | some c =>
    rw [hlast] at h
    exact h

/-- What ends in a character that is not blank lies in a text or not at all, whatever blanks are put
behind the text. -/
theorem exists_rest_of_append {text blanks core after : List Char}
    (hblanks : ∀ b ∈ blanks, isBlank b = true) (hcore : endsVisible core = true)
    (h : text ++ blanks = core ++ after) : ∃ rest, text = core ++ rest ∧ after = rest ++ blanks := by
  rcases List.append_eq_append_iff.mp h with ⟨excess, rfl, hexcess⟩ | ⟨rest, htext, hafter⟩
  · rcases List.eq_nil_or_concat excess with rfl | ⟨front, b, hconcat⟩
    · exact ⟨[], by rw [List.append_nil, List.append_nil], hexcess.symm⟩
    · -- The last character of the core would be one of the blanks.
      rw [List.concat_eq_append] at hconcat
      subst hconcat
      have hblank : isBlank b = true := by
        apply hblanks
        rw [hexcess]
        exact List.mem_append_left _ List.mem_concat_self
      have hlast : (text ++ (front ++ [b])).getLast? = some b := by
        rw [← List.append_assoc, List.getLast?_concat]
      rw [endsVisible, hlast, Option.any_some, hblank] at hcore
      cases hcore
  · exact ⟨rest, htext, hafter⟩

theorem Signature.append_blanks {text blanks : List Char}
    (hblanks : ∀ b ∈ blanks, isBlank b = true) (h : Signature text) :
    Signature (text ++ blanks) := by
  cases h with
  | mark before mark behind hmark hbehind htext =>
    refine .mark before mark (behind ++ blanks) hmark ?_ ?_
    · intro b hb
      exact (List.mem_append.mp hb).elim (hbehind b) (hblanks b)
    · rw [htext, List.append_assoc]
  | question before between opening answer after hbetween hopening hanswer htext =>
    refine .question before between opening answer (after ++ blanks) hbetween hopening hanswer ?_
    rw [htext, List.append_assoc]
  | menu before between after hline htext =>
    refine .menu before between (after ++ blanks) hline ?_
    rw [htext, List.append_assoc]
  | phrase before phrase after hphrase htext =>
    refine .phrase before phrase (after ++ blanks) hphrase ?_
    rw [htext, List.append_assoc]

theorem Signature.of_append_blanks {text blanks : List Char}
    (hblanks : ∀ b ∈ blanks, isBlank b = true) (h : Signature (text ++ blanks)) :
    Signature text := by
  cases h with
  | mark before mark behind hmark hbehind htext =>
    have hvisible : endsVisible [mark] = true := congrArg not (isBlank_mark hmark)
    have hend : endsVisible (before ++ [mark]) = true := endsVisible_append _ hvisible
    obtain ⟨rest, hrest, hsplit⟩ := exists_rest_of_append hblanks hend htext
    refine .mark before mark rest hmark ?_ hrest
    intro b hb
    apply hbehind
    rw [hsplit]
    exact List.mem_append_left _ hb
  | question before between opening answer after hbetween hopening hanswer htext =>
    have hanswers : ∀ answer ∈ answers, endsVisible answer.toList = true := by decide +kernel
    obtain ⟨rest, hrest, -⟩ :=
      exists_rest_of_append hblanks (endsVisible_append _ (hanswers answer hanswer)) htext
    exact .question before between opening answer rest hbetween hopening hanswer hrest
  | menu before between after hline htext =>
    have hentry : endsVisible "(N)o".toList = true := by decide +kernel
    obtain ⟨rest, hrest, -⟩ := exists_rest_of_append hblanks (endsVisible_append _ hentry) htext
    exact .menu before between rest hline hrest
  | phrase before phrase after hphrase htext =>
    have hphrases : ∀ phrase ∈ phrases, endsVisible phrase.toList = true := by decide +kernel
    obtain ⟨rest, hrest, -⟩ :=
      exists_rest_of_append hblanks (endsVisible_append _ (hphrases phrase hphrase)) htext
    exact .phrase before phrase rest hphrase hrest

/-- **A text reads like a prompt exactly if it has a signature, and blanks put behind it, line feeds
among them, change nothing.** -/
theorem isPrompt_signature (text : List Char) :
    (isPrompt text = true ↔ Signature text) ∧
      ∀ blanks, (∀ b ∈ blanks, isBlank b = true) → isPrompt (text ++ blanks) = isPrompt text := by
  refine ⟨isPrompt_iff, ?_⟩
  intro blanks hblanks
  apply Bool.eq_iff_iff.mpr
  rw [isPrompt_iff, isPrompt_iff]
  exact ⟨Signature.of_append_blanks hblanks, Signature.append_blanks hblanks⟩

/-- A question with its answer on the next line, and a line feed and a no-break space behind it. -/
theorem isPrompt_signature_question :
    Signature "Go on?\n (yes".toList ∧
      (∀ b ∈ ['\n', Char.ofNat 0xA0], isBlank b = true) ∧
      isPrompt ("Go on?\n (yes".toList ++ ['\n', Char.ofNat 0xA0]) = true := by
  have hsignature : Signature "Go on?\n (yes".toList :=
    .question "Go on".toList ['\n', ' '] ['('] "yes" [] (List.all_eq_true.mp (by decide)) (.inr rfl)
      (by decide) (by decide +kernel)
  have hblanks : ∀ b ∈ ['\n', Char.ofNat 0xA0], isBlank b = true :=
    List.all_eq_true.mp (by decide)
  have hsame := (isPrompt_signature "Go on?\n (yes".toList).2 _ hblanks
  exact ⟨hsignature, hblanks, hsame.trans ((isPrompt_signature _).1.mpr hsignature)⟩

/-- The entries of a menu on two lines are none. -/
example : isPrompt "(Y)es\n(N)o".toList = false := by decide +kernel

end TerminalSession.Prompt
