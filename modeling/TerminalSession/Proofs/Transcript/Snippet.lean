import Mathlib.Data.List.DropRight
import TerminalSession.Proofs.Text.Words
import TerminalSession.Proofs.Transcript.Search

/-!
# A snippet is an exact window

A snippet is cut out of a text at places that are counted in characters, and asked for by places that
are counted in bytes. The two kinds of places are tied together here: the characters that end at or
before an offset take up the text as far as the last boundary there (`isFloor_charsBefore`), and
those that begin before it as far as the next one (`isCeil_charsBegun`).

So wherever a snippet is asked for, the text comes apart at two boundaries in their order, and what
is collapsed to make the snippet is what lies between them and so many characters on either side
(`exists_window`); there is no other such window (`IsWindow.unique`). At a place that the text has,
nothing has to be moved (`snippet_append`), so the snippet of a hit has the whole hit in it, collapsed.
-/

set_option autoImplicit false

namespace TerminalSession

namespace Utf8

theorem size_le_of_isPrefix {front text : List Char} (h : front <+: text) :
    size front ≤ size text := by
  obtain ⟨rest, rfl⟩ := h
  rw [size_append]
  exact Nat.le_add_right _ _

/-- A front of a text is known by how many bytes it takes. -/
theorem eq_of_isPrefix_of_size_eq {front other text : List Char} (h : front <+: text)
    (h' : other <+: text) (hsize : size front = size other) : front = other := by
  have hall {front rest : List Char} (hsize : size front = size (front ++ rest)) :
      front = front ++ rest := by
    cases rest with
    | nil => exact (List.append_nil front).symm
    | cons c rest =>
      have hpos := c.utf8Size_pos
      rw [size_append, size_cons] at hsize
      omega
  rcases List.prefix_or_prefix_of_prefix h h' with ⟨rest, rfl⟩ | ⟨rest, rfl⟩
  · exact hall hsize
  · exact (hall hsize.symm).symm

/-! ## Boundaries -/

/-- A place between two characters of a text, or at one of its ends, counted in bytes. -/
def IsBoundary (text : List Char) (place : Nat) : Prop := ∃ front, front <+: text ∧ size front = place

/-- The last boundary at or before an offset. -/
structure IsFloor (text : List Char) (offset place : Nat) : Prop where
  boundary : IsBoundary text place
  le : place ≤ offset
  greatest : ∀ other, IsBoundary text other → other ≤ offset → other ≤ place

/-- The first boundary at or behind an offset; behind the text there is none, and its end is it. -/
structure IsCeil (text : List Char) (offset place : Nat) : Prop where
  boundary : IsBoundary text place
  le : min offset (size text) ≤ place
  least : ∀ other, IsBoundary text other → min offset (size text) ≤ other → place ≤ other

/-- An offset that is a boundary is not moved. -/
theorem IsBoundary.isFloor {text : List Char} {place : Nat} (h : IsBoundary text place) :
    IsFloor text place place :=
  ⟨h, Nat.le_refl place, fun _ _ hle => hle⟩

theorem IsBoundary.isCeil {text : List Char} {place : Nat} (h : IsBoundary text place) :
    IsCeil text place place := by
  have hle : place ≤ size text := by
    obtain ⟨front, hfront, rfl⟩ := h
    exact size_le_of_isPrefix hfront
  refine ⟨h, Nat.min_le_left _ _, ?_⟩
  intro other hother hreached
  rwa [Nat.min_eq_left hle] at hreached

theorem IsFloor.unique {text : List Char} {offset place other : Nat} (h : IsFloor text offset place)
    (h' : IsFloor text offset other) : place = other :=
  Nat.le_antisymm (h'.greatest place h.boundary h.le) (h.greatest other h'.boundary h'.le)

theorem IsCeil.unique {text : List Char} {offset place other : Nat} (h : IsCeil text offset place)
    (h' : IsCeil text offset other) : place = other :=
  Nat.le_antisymm (h.least other h'.boundary h'.le) (h'.least place h.boundary h.le)

/-- An offset that is cut down to what no text is longer than has the same boundary behind it. -/
theorem IsCeil.saturate {text : List Char} {offset place limit : Nat} (h : IsCeil text offset place)
    (hlimit : size text ≤ limit) : IsCeil text (min offset limit) place := by
  have hmin : min (min offset limit) (size text) = min offset (size text) := by omega
  exact ⟨h.boundary, hmin ▸ h.le, hmin ▸ h.least⟩

end Utf8

namespace Transcript

open Utf8 (size IsBoundary IsFloor IsCeil)

/-! ## Characters before an offset -/

theorem charsBefore_le_length (offset : Nat) (text : List Char) :
    charsBefore offset text ≤ text.length := by
  fun_induction charsBefore offset text with
  | case1 => exact Nat.le_refl 0
  | case2 offset c text hfits ih => exact Nat.succ_le_succ ih
  | case3 => exact Nat.zero_le _

theorem size_take_charsBefore_le (offset : Nat) (text : List Char) :
    size (text.take (charsBefore offset text)) ≤ offset := by
  fun_induction charsBefore offset text with
  | case1 => exact Nat.zero_le _
  | case2 offset c text hfits ih =>
    rw [List.take_succ_cons, Utf8.size_cons]
    omega
  | case3 => exact Nat.zero_le _

/-- No front that fits before the offset has more characters. -/
theorem isPrefix_take_charsBefore {offset : Nat} {text front : List Char} (h : front <+: text)
    (hsize : size front ≤ offset) : front <+: text.take (charsBefore offset text) := by
  fun_induction charsBefore offset text generalizing front with
  | case1 => exact h
  | case2 offset c text hfits ih =>
    cases front with
    | nil => exact List.nil_prefix
    | cons d front =>
      obtain ⟨rfl, hrest⟩ := List.cons_prefix_cons.mp h
      rw [Utf8.size_cons] at hsize
      rw [List.take_succ_cons]
      exact List.cons_prefix_cons.mpr ⟨rfl, ih hrest (by omega)⟩
  | case3 offset c text hfits =>
    cases front with
    | nil => exact List.nil_prefix
    | cons d front =>
      obtain ⟨rfl, -⟩ := List.cons_prefix_cons.mp h
      rw [Utf8.size_cons] at hsize
      omega

theorem isFloor_charsBefore (offset : Nat) (text : List Char) :
    IsFloor text offset (size (text.take (charsBefore offset text))) where
  boundary := ⟨_, List.take_prefix _ text, rfl⟩
  le := size_take_charsBefore_le offset text
  greatest := by
    rintro other ⟨front, hfront, rfl⟩ hle
    exact Utf8.size_le_of_isPrefix (isPrefix_take_charsBefore hfront hle)

/-! ## Characters begun before an offset -/

theorem charsBegun_le_length (offset : Nat) (text : List Char) :
    charsBegun offset text ≤ text.length := by
  fun_induction charsBegun offset text with
  | case1 => exact Nat.le_refl 0
  | case2 => exact Nat.zero_le _
  | case3 offset c text ih => exact Nat.succ_le_succ ih

theorem le_size_take_charsBegun (offset : Nat) (text : List Char) :
    min offset (size text) ≤ size (text.take (charsBegun offset text)) := by
  fun_induction charsBegun offset text with
  | case1 => exact Nat.min_le_right _ _
  | case2 => exact Nat.min_le_left _ _
  | case3 offset c text ih =>
    rw [List.take_succ_cons, Utf8.size_cons, Utf8.size_cons]
    omega

/-- Every front that reaches the offset has all of them. -/
theorem take_charsBegun_isPrefix {offset : Nat} {text front : List Char} (h : front <+: text)
    (hsize : min offset (size text) ≤ size front) :
    text.take (charsBegun offset text) <+: front := by
  fun_induction charsBegun offset text generalizing front with
  | case1 => exact List.nil_prefix
  | case2 => exact List.nil_prefix
  | case3 offset c text ih =>
    have hpos := c.utf8Size_pos
    rw [Utf8.size_cons] at hsize
    cases front with
    | nil =>
      rw [Utf8.size_nil] at hsize
      omega
    | cons d front =>
      obtain ⟨rfl, hrest⟩ := List.cons_prefix_cons.mp h
      rw [Utf8.size_cons] at hsize
      rw [List.take_succ_cons]
      exact List.cons_prefix_cons.mpr ⟨rfl, ih hrest (by omega)⟩

theorem isCeil_charsBegun (offset : Nat) (text : List Char) :
    IsCeil text offset (size (text.take (charsBegun offset text))) where
  boundary := ⟨_, List.take_prefix _ text, rfl⟩
  le := le_size_take_charsBegun offset text
  least := by
    rintro other ⟨front, hfront, rfl⟩ hle
    exact Utf8.size_le_of_isPrefix (take_charsBegun_isPrefix hfront hle)

/-- A character that ends before an offset has begun before a later one. -/
theorem charsBefore_le_charsBegun {offset stop : Nat} (h : offset ≤ stop) (text : List Char) :
    charsBefore offset text ≤ charsBegun stop text := by
  fun_induction charsBefore offset text generalizing stop with
  | case1 => exact Nat.zero_le _
  | case2 offset c text hfits ih =>
    have hpos := c.utf8Size_pos
    cases stop with
    | zero => omega
    | succ stop =>
      rw [charsBegun]
      exact Nat.succ_le_succ (ih (by omega))
  | case3 => exact Nat.zero_le _

/-! ## The window -/

/-- What a snippet is collapsed from. The text comes apart at the last boundary at or before one
place and at the first one at or behind another; what lies between them is shown, and as many
characters before it and behind it as there are to be, or as there are. -/
def IsWindow (text : List Char) (offset stop context : Nat) (window : List Char) : Prop :=
  ∃ before found after, text = before ++ found ++ after ∧ IsFloor text offset (size before) ∧
    IsCeil text stop (size (before ++ found)) ∧
    window = before.rtake context ++ found ++ after.take context

theorem IsWindow.saturate {text window : List Char} {offset stop context limit : Nat}
    (h : IsWindow text offset stop context window) (hlimit : size text ≤ limit) :
    IsWindow text offset (min stop limit) context window := by
  obtain ⟨before, found, after, htext, hfloor, hceil, hwindow⟩ := h
  exact ⟨before, found, after, htext, hfloor, hceil.saturate hlimit, hwindow⟩

/-- There is one window at most. -/
theorem IsWindow.unique {text window other : List Char} {offset stop context : Nat}
    (h : IsWindow text offset stop context window)
    (h' : IsWindow text offset stop context other) : other = window := by
  obtain ⟨before, found, after, rfl, hfloor, hceil, rfl⟩ := h
  obtain ⟨before', found', after', htext, hfloor', hceil', rfl⟩ := h'
  have hfront : before ++ found = before' ++ found' :=
    Utf8.eq_of_isPrefix_of_size_eq (List.prefix_append _ after)
      ⟨after', htext.symm⟩ (hceil.unique hceil')
  have hother : before' <+: before ++ found := by
    rw [hfront]
    exact List.prefix_append _ found'
  obtain rfl : before = before' :=
    Utf8.eq_of_isPrefix_of_size_eq (List.prefix_append _ found) hother (hfloor.unique hfloor')
  obtain rfl : found = found' := List.append_cancel_left hfront
  obtain rfl : after = after' := List.append_cancel_left htext
  rfl

/-- A window begins and ends between characters. -/
theorem IsWindow.exists_slice {text window : List Char} {offset stop context : Nat}
    (h : IsWindow text offset stop context window) :
    ∃ first last, first ≤ last ∧ Utf8.slice? text first last = some window := by
  obtain ⟨before, found, after, htext, -, -, rfl⟩ := h
  have hbefore : before.rdrop context ++ before.rtake context = before :=
    List.take_append_drop _ before
  have hafter : after.take context ++ after.drop context = after := List.take_append_drop _ after
  have hle : size (before.rdrop context) ≤
      size (before.rdrop context ++ (before.rtake context ++ found ++ after.take context)) :=
    Utf8.size_le_of_isPrefix (List.prefix_append _ _)
  refine ⟨_, _, hle, (Utf8.slice?_eq_some_iff hle).mpr ⟨_, after.drop context, ?_, rfl, rfl⟩⟩
  calc text = (before.rdrop context ++ before.rtake context) ++ found ++
        (after.take context ++ after.drop context) := by rw [hbefore, hafter, htext]
    _ = _ := by simp only [List.append_assoc]

/-- What is cut out of a text at two places in it. -/
theorem drop_take_append (before found after : List Char) (context : Nat) :
    ((before ++ found ++ after).take ((before ++ found).length + context)).drop
        (before.length - context) =
      before.rtake context ++ found ++ after.take context := by
  rw [List.take_length_add_append, List.append_assoc, List.append_assoc,
    List.drop_append_of_le_length (Nat.sub_le _ _), List.rtake]

/-- **A snippet is a window, collapsed**, wherever it is asked for. -/
theorem exists_window (text : List Char) (offset length context : Nat) :
    ∃ window, IsWindow text offset (offset + length) context window ∧
      snippet text offset length context = Text.collapseBlanks window := by
  have horder := charsBefore_le_charsBegun (Nat.le_add_right offset length) text
  have hfloor := isFloor_charsBefore offset text
  have hceil := isCeil_charsBegun (offset + length) text
  have hfirst := charsBefore_le_length offset text
  have hlast := charsBegun_le_length (offset + length) text
  rw [snippet]
  generalize charsBefore offset text = first at *
  generalize charsBegun (offset + length) text = last at *
  have hbefore : text.take first ++ (text.take last).drop first = text.take last := by
    have h := List.take_append_drop first (text.take last)
    rwa [List.take_take, Nat.min_eq_left horder] at h
  have htext : text.take first ++ (text.take last).drop first ++ text.drop last = text := by
    rw [hbefore, List.take_append_drop]
  refine ⟨_, ⟨text.take first, (text.take last).drop first, text.drop last, htext.symm, hfloor,
    hbefore.symm ▸ hceil, rfl⟩, ?_⟩
  have hcut := drop_take_append (text.take first) ((text.take last).drop first) (text.drop last)
    context
  rw [htext, hbefore, List.length_take_of_le hfirst, List.length_take_of_le hlast] at hcut
  rw [hcut]

/-- Nothing at all, asked for inside a character, is that character. -/
example : snippet ['a', 'é', ' ', 'b'] 2 0 0 = ['é'] := by decide +kernel

/-! ## Snippets of hits -/

/-- Around what a text has at a place nothing is moved. -/
theorem snippet_append (before found after : List Char) (context : Nat) :
    snippet (before ++ found ++ after) (size before) (size found) context =
      Text.collapseBlanks (before.rtake context ++ found ++ after.take context) := by
  have hbegin : IsBoundary (before ++ found ++ after) (size before) :=
    ⟨before, (List.prefix_append before found).trans (List.prefix_append _ after), rfl⟩
  have hend : IsBoundary (before ++ found ++ after) (size before + size found) :=
    ⟨before ++ found, List.prefix_append _ _, Utf8.size_append before found⟩
  have hceil := hend.isCeil
  rw [← Utf8.size_append] at hceil
  obtain ⟨window, hwindow, hsnippet⟩ :=
    exists_window (before ++ found ++ after) (size before) (size found) context
  rw [← Utf8.size_append] at hwindow
  rw [hsnippet, hwindow.unique ⟨before, found, after, rfl, hbegin.isFloor, hceil, rfl⟩]

/-- The snippet of a hit has the hit in it. -/
theorem collapseBlanks_infix_of_search {source : String} {data : Bytes} {query : List Char}
    {m : Match} (h : search source data query = .ok (some m)) :
    ∃ length found, Utf8.slice? (Utf8.decode data) m.offset (m.offset + length) = some found ∧
      Text.lowerEach found = Text.lowerEach query ∧
      Text.collapseBlanks found <:+: m.snippet.toList := by
  have hquery : query ≠ [] := by
    rintro rfl
    cases h
  obtain ⟨-, length, ⟨found, hslice, hform⟩, -, hsnippet⟩ := search_eq_some hquery h
  refine ⟨length, found, hslice, hform, ?_⟩
  obtain ⟨before, after, htext, hbefore, hstop⟩ :=
    (Utf8.slice?_eq_some_iff (Nat.le_add_right _ _)).mp hslice
  rw [Utf8.size_append, hbefore] at hstop
  rw [hsnippet, String.toList_ofList, htext, ← hbefore, ← Nat.add_left_cancel hstop,
    snippet_append]
  exact Text.collapseBlanks_infix (List.infix_append _ found _)

/-- **Snippets are exact windows.** At every place, also beyond the text and inside a character, and
for every number of characters to be shown around it:

- a snippet is a part of the text, between two boundaries in their order, collapsed; the part is the
  one window that was asked for, and still is if the sum of the offset and the length is cut down to
  some limit that no text is longer than;
- its only blanks are single spaces on the inside;
- and the snippet of a hit has what was hit in it, collapsed. -/
theorem snippet_exact :
    (∀ text offset length context, ∃ window,
      (∀ other, IsWindow text offset (offset + length) context other ↔ other = window) ∧
      (∀ limit, size text ≤ limit →
        IsWindow text offset (min (offset + length) limit) context window) ∧
      (∃ first last, first ≤ last ∧ Utf8.slice? text first last = some window) ∧
      snippet text offset length context = Text.collapseBlanks window) ∧
    (∀ text offset length context, Text.SingleSpaced (snippet text offset length context)) ∧
    ∀ source data query m, search source data query = .ok (some m) →
      ∃ length found, Utf8.slice? (Utf8.decode data) m.offset (m.offset + length) = some found ∧
        Text.lowerEach found = Text.lowerEach query ∧
        Text.collapseBlanks found <:+: m.snippet.toList := by
  refine ⟨?_, ?_, ?_⟩
  · intro text offset length context
    obtain ⟨window, hwindow, hsnippet⟩ := exists_window text offset length context
    have honly (other : List Char) :
        IsWindow text offset (offset + length) context other ↔ other = window := by
      constructor
      · exact hwindow.unique
      · rintro rfl
        exact hwindow
    exact ⟨window, honly, fun limit => hwindow.saturate, hwindow.exists_slice, hsnippet⟩
  · intro text offset length context
    exact Text.singleSpaced_collapseBlanks _
  · intro source data query m
    exact collapseBlanks_infix_of_search

/-- A hit that has a tab in it, where the query has a space as well. -/
theorem snippet_exact_tab :
    let data : Bytes := [0x78, 0xE2, 0x9D, 0xAF, 0x0A, 0x20, 0x46, 0x09, 0x20, 0x62, 0x0A, 0x0A, 0x79]
    search "a" data ['f', '\t', ' ', 'B'] = .ok (some ⟨"a", 6, "x❯ F b y"⟩) ∧
      ∃ length found, Utf8.slice? (Utf8.decode data) 6 (6 + length) = some found ∧
        Text.lowerEach found = Text.lowerEach ['f', '\t', ' ', 'B'] ∧
        Text.collapseBlanks found <:+: "x❯ F b y".toList := by
  intro data
  have hsearch : search "a" data ['f', '\t', ' ', 'B'] = .ok (some ⟨"a", 6, "x❯ F b y"⟩) := by
    decide +kernel
  have hhit := snippet_exact.2.2 "a" data _ _ hsearch
  exact ⟨hsearch, hhit⟩

end Transcript

end TerminalSession
