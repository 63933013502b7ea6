import Mathlib.Data.List.Induction
import TerminalSession.Proofs.Classifier.Tail
import TerminalSession.Proofs.Escape.Sequence
import TerminalSession.Proofs.Utf8.Codec

/-!
# Output with colours in it

A classifier takes the last lines of its window first and strips them then, so a sequence has a say
in which lines there are if it holds a line feed. One that holds none stands on one line, whole: the
last lines of well-formed output are its last items, and the last lines of the texts among the items
are the texts among the same last items (`exists_lastLines`). What stripping leaves is then what would
be there without the sequences.

So a text that is decorated with sequences asks for the status that it asks for by itself, in
whatever chunks each of the two comes (`decorated_asks`). The decorated text has to fit into the
window: sequences take up room there, and of one that is cut off at the beginning a part is read.
-/

set_option autoImplicit false

namespace TerminalSession

namespace Escape

/-- A character, or a sequence that holds no line feed. -/
def Item.OnOneLine : Item → Prop
  | .plain _ _ => True
  | .sequence s => '\n' ∉ s.text

instance : DecidablePred Item.OnOneLine
  | .plain _ _ => isTrue trivial
  | .sequence s => inferInstanceAs (Decidable ('\n' ∉ s.text))

theorem meant_append (items more : List Item) : meant (items ++ more) = meant items ++ meant more :=
  List.flatMap_append

theorem esc_not_mem_meant (items : List Item) : ∀ c ∈ meant items, c ≠ esc := by
  intro c hc
  obtain ⟨item, -, hmem⟩ := List.mem_flatMap.mp hc
  cases item with
  | plain d hd =>
    rw [List.mem_singleton.mp hmem]
    exact hd
  | sequence s => cases hmem

/-- **The last lines of well-formed output are its last items**, and those of the texts among the
items are the texts among the same ones. -/
theorem exists_lastLines {items : List Item} (h : ∀ item ∈ items, item.OnOneLine) (n : Nat) :
    ∃ shown, shown <:+ items ∧ Text.lastLines (render items) n = render shown ∧
      Text.lastLines (meant items) n = meant shown := by
  induction items using List.reverseRecOn generalizing n with
  | nil =>
    have hnothing : Text.lastLines [] n = [] := List.suffix_nil.mp (Text.lastLines_suffix [] n)
    exact ⟨[], List.suffix_refl [], hnothing, hnothing⟩
  | append_singleton items item ih =>
    cases n with
    | zero => exact ⟨[], List.nil_suffix, Text.lastLines_zero _, Text.lastLines_zero _⟩
    | succ n =>
      have hitems : ∀ item ∈ items, item.OnOneLine := by
        intro other hother
        exact h other (List.mem_append_left _ hother)
      have hitem : item.OnOneLine := h item List.mem_concat_self
      have hlonger {shown : List Item} (hshown : shown <:+ items) :
          shown ++ [item] <:+ items ++ [item] := by
        obtain ⟨earlier, rfl⟩ := hshown
        exact ⟨earlier, (List.append_assoc _ _ _).symm⟩
      -- An item that holds no line feed goes with the lines before it.
      have hsame (htext : '\n' ∉ render [item]) (hmeant : '\n' ∉ meant [item]) :
          ∃ shown, shown <:+ items ++ [item] ∧
            Text.lastLines (render (items ++ [item])) (n + 1) = render shown ∧
            Text.lastLines (meant (items ++ [item])) (n + 1) = meant shown := by
        obtain ⟨shown, hshown, hrendered, hread⟩ := ih hitems (n + 1)
        refine ⟨shown ++ [item], hlonger hshown, ?_, ?_⟩
        · rw [render_append, Text.lastLines_append htext n.succ_pos, hrendered, render_append]
        · rw [meant_append, Text.lastLines_append hmeant n.succ_pos, hread, meant_append]
      cases item with
      | plain c hc =>
        by_cases hbreak : c = '\n'
        · subst hbreak
          have hlines (text : List Char) := Text.lastLines_append_lineFeed text n
          by_cases hn : n = 0
          · refine ⟨[], List.nil_suffix, ?_, ?_⟩
            · rw [render_append]
              exact (hlines _).trans (if_pos hn)
            · rw [meant_append]
              exact (hlines _).trans (if_pos hn)
          · obtain ⟨shown, hshown, hrendered, hread⟩ := ih hitems n
            refine ⟨shown ++ [.plain '\n' hc], hlonger hshown, ?_, ?_⟩
            · rw [render_append, render_append, ← hrendered]
              exact (hlines _).trans (if_neg hn)
            · rw [meant_append, meant_append, ← hread]
              exact (hlines _).trans (if_neg hn)
        · have hnot : '\n' ∉ [c] := mt List.mem_singleton.mp (Ne.symm hbreak)
          exact hsame hnot hnot
      | sequence s =>
        have hrender : render [.sequence s] = s.text := List.flatMap_singleton _ _
        exact hsame (hrender ▸ hitem) List.not_mem_nil

/-- Stripping the last lines of well-formed output leaves the last lines of its texts. -/
theorem strip_lastLines {items : List Item} (h : ∀ item ∈ items, item.OnOneLine) (n : Nat) :
    strip (Text.lastLines (render items) n) = Text.lastLines (meant items) n := by
  obtain ⟨shown, -, hrendered, hread⟩ := exists_lastLines h n
  rw [hrendered, hread, strip_render]

/-- The texts themselves are not changed by it. -/
theorem strip_lastLines_meant (items : List Item) (n : Nat) :
    strip (Text.lastLines (meant items) n) = Text.lastLines (meant items) n := by
  apply strip_eq_self
  intro c hc
  exact esc_not_mem_meant items c ((Text.lastLines_suffix _ n).subset hc)

theorem size_meant_le (items : List Item) : Utf8.size (meant items) ≤ Utf8.size (render items) := by
  induction items with
  | nil => exact Nat.le_refl 0
  | cons item items ih =>
    rw [render_cons, meant_cons, Utf8.size_append, Utf8.size_append]
    cases item with
    | plain c hc => exact Nat.add_le_add_left ih _
    | sequence s => exact (Nat.add_le_add_left ih 0).trans (Nat.add_le_add_right (Nat.zero_le _) _)

end Escape

namespace Classifier

open Escape (Item render meant)

/-! ## Text that fits into the window -/

/-- The status that a chunk of output asks for, and that the chunk makes the classifier hand to the
setter. -/
structure Asks (cfg : Config) (s : Stage Classifier Job) (data : Bytes) (status : Status) :
    Prop where
  asked : s.state.asked cfg data = status
  handed : call cfg s.now (.output data) s.state = setStatus cfg s.now status
    { s.state with
      window := tailWindow cfg.windowBytes (s.state.window ++ data)
      lastOutput := s.now
      deadline := s.now + cfg.idleTimeout }

theorem asks_of_fits (cfg : Config) (began capacity : Nat) {steps : List (Stage.Step Call)}
    (never : .call .stop ∉ steps) {data : Bytes} (hdata : data ≠ []) {text : List Char}
    (htext : fed steps ++ data = Utf8.encode text) (hfits : Utf8.size text ≤ cfg.windowBytes) :
    Asks cfg ((opening cfg began capacity).run (component cfg) steps).1 data
      (if Prompt.isPrompt (Escape.strip (Text.lastLines text cfg.promptLines)) then .needsInput
        else .active) := by
  have hwindow : tailWindow cfg.windowBytes (Utf8.encode text) = Utf8.encode text := by
    rw [tailWindow, Utf8.length_encode, Nat.sub_eq_zero_of_le hfits, List.drop_zero]
  have hasked := asked_eq cfg began capacity never (tail_lastLines cfg (fed steps ++ data))
  rw [htext, hwindow, Utf8.decode_encode] at hasked
  have hrunning : ((opening cfg began capacity).run (component cfg) steps).1.state.stopped = false :=
    (run_running_iff cfg began capacity steps).mpr never
  refine ⟨hasked, ?_⟩
  rw [← hasked]
  exact output_of_running cfg _ hrunning hdata

/-- **A decorated text asks for what the text itself asks for.** -/
theorem decorated_asks (cfg : Config) {items : List Item}
    (hlines : ∀ item ∈ items, item.OnOneLine)
    (hfits : (Utf8.encode (render items)).length ≤ cfg.windowBytes)
    (began capacity : Nat) {steps : List (Stage.Step Call)} (never : .call .stop ∉ steps)
    {data : Bytes} (hdata : data ≠ [])
    (hdecorated : fed steps ++ data = Utf8.encode (render items))
    (began' capacity' : Nat) {steps' : List (Stage.Step Call)} (never' : .call .stop ∉ steps')
    {data' : Bytes} (hdata' : data' ≠ [])
    (hplain : fed steps' ++ data' = Utf8.encode (meant items)) :
    ∃ status,
      Asks cfg ((opening cfg began capacity).run (component cfg) steps).1 data status ∧
      Asks cfg ((opening cfg began' capacity').run (component cfg) steps').1 data' status ∧
      status = if Prompt.isPrompt (Text.lastLines (meant items) cfg.promptLines) then .needsInput
        else .active := by
  rw [Utf8.length_encode] at hfits
  have hdecorates := asks_of_fits cfg began capacity never hdata hdecorated hfits
  have hplainly := asks_of_fits cfg began' capacity' never' hdata' hplain
    ((Escape.size_meant_le items).trans hfits)
  rw [Escape.strip_lastLines hlines] at hdecorates
  rw [Escape.strip_lastLines_meant] at hplainly
  exact ⟨_, hdecorates, hplainly, rfl⟩

/-- A line, and a chevron in bold on the next one. -/
def boldChevron : List Item :=
  [.plain 'o' (by decide), .plain 'k' (by decide), .plain '\n' (by decide),
    .sequence (.control ['1'] 'm' (List.forall_mem_singleton.mpr (by decide)) (by decide)),
    .plain '❯' (by decide), .sequence (.control [] 'm' nofun (by decide)), .plain ' ' (by decide)]

/-- It comes in three chunks, cut in a sequence and in the chevron. -/
def boldChevronBegun : List (Stage.Step Call) :=
  [.call (.output [0x6F, 0x6B, 0x0A, 0x1B, 0x5B]), .sleep 5,
    .call (.output [0x31, 0x6D, 0xE2, 0x9D])]

theorem decorated_asks_boldChevron :
    let cfg : Config := ⟨1000, 0, 14, 1, by decide, by decide, by decide⟩
    (∀ item ∈ boldChevron, item.OnOneLine) ∧
      (Utf8.encode (render boldChevron)).length ≤ cfg.windowBytes ∧
      .call .stop ∉ boldChevronBegun ∧ .call .stop ∉ chevronBegun ∧
      fed boldChevronBegun ++ [0xAF, 0x1B, 0x5B, 0x6D, 0x20] = Utf8.encode (render boldChevron) ∧
      fed chevronBegun ++ [0xAF, 0x20] = Utf8.encode (meant boldChevron) ∧
      ((opening cfg 0 1).run (component cfg) boldChevronBegun).1.state.asked cfg
        [0xAF, 0x1B, 0x5B, 0x6D, 0x20] = .needsInput ∧
      ((opening cfg 7 1).run (component cfg) chevronBegun).1.state.asked cfg [0xAF, 0x20] =
        .needsInput := by
  intro cfg
  have hlines : ∀ item ∈ boldChevron, item.OnOneLine := by decide
  have hfits : (Utf8.encode (render boldChevron)).length ≤ cfg.windowBytes := by decide +kernel
  have never : .call .stop ∉ boldChevronBegun := by simp [boldChevronBegun]
  have never' : .call .stop ∉ chevronBegun := by simp [chevronBegun]
  have hdecorated : fed boldChevronBegun ++ [0xAF, 0x1B, 0x5B, 0x6D, 0x20] =
      Utf8.encode (render boldChevron) := by decide +kernel
  have hplain : fed chevronBegun ++ [0xAF, 0x20] = Utf8.encode (meant boldChevron) := by
    decide +kernel
  obtain ⟨status, hdecorates, hplainly, rfl⟩ := decorated_asks cfg hlines hfits 0 1 never
    (List.cons_ne_nil _ _) hdecorated 7 1 never' (List.cons_ne_nil _ _) hplain
  have hprompt : Prompt.isPrompt (Text.lastLines (meant boldChevron) cfg.promptLines) = true := by
    decide +kernel
  rw [if_pos hprompt] at hdecorates hplainly
  exact ⟨hlines, hfits, never, never', hdecorated, hplain, hdecorates.asked, hplainly.asked⟩

/-- A title with a line feed in it leaves the prompt before it on another line. -/
example :
    let title := Escape.Sequence.command ['a', '\n', 'b'] .bell (by simp [Escape.bell, Escape.esc])
    let items : List Item := [.plain '$' (by decide), .sequence title]
    Prompt.isPrompt (Escape.strip (Text.lastLines (render items) 1)) = false ∧
      Prompt.isPrompt (Text.lastLines (meant items) 1) = true := by
  decide +kernel

end Classifier

end TerminalSession
