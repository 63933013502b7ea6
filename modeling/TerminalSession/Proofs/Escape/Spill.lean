import TerminalSession.Proofs.Escape.Sequence
import TerminalSession.Proofs.Text.Visible
import TerminalSession.Proofs.Utf8.Codec

/-!
# What cuts in string terminators spill

A string terminator is two characters, and output can be cut between them. `middles` are the places
of a stream, counted in bytes, where a cut would do that, and `left` is what is left of a stream if
every system command cut there spills: its bracket, its body and the backslash of its terminator
come out as text.

What spills is always seen, as a bracket is among it. So the texts of a stream are what is left of
it exactly if no cut falls on one of these places (`visible_left_iff`), and what spills never hides
what is meant to be read (`meant_sublist_left`).

That a recorder leaves what `left` says is proved in `Proofs/Recorder/Chunks`.
-/

set_option autoImplicit false

namespace TerminalSession.Escape

open Text (visible)

/-- How many bytes into the item its string terminator has its middle: behind the escape and the
bracket, the body, and the terminator's own escape. -/
def Item.middle? : Item → Option Nat
  | .sequence (.command body .string _) => some (Utf8.size body + 3)
  | _ => none

/-- What an item leaves if it is cut there. -/
def Item.spilled : Item → List Char
  | .sequence (.command body .string _) => ']' :: body ++ ['\\']
  | _ => []

/-- Whether an item that begins at a place is cut in the middle of its terminator. -/
def Item.IsCut (cuts : List Nat) (place : Nat) (item : Item) : Prop :=
  ∃ middle, item.middle? = some middle ∧ place + middle ∈ cuts

instance (cuts : List Nat) (place : Nat) (item : Item) : Decidable (item.IsCut cuts place) :=
  decidable_of_iff (∃ middle ∈ item.middle?, place + middle ∈ cuts) Iff.rfl

/-- The middles of all string terminators in items that begin at a place. -/
def middles : Nat → List Item → List Nat
  | _, [] => []
  | place, item :: items =>
    (item.middle?.map (place + ·)).toList ++ middles (place + Utf8.size item.text) items

/-- What is left of items that begin at a place, when they are cut at some places. -/
def left (cuts : List Nat) : Nat → List Item → List Char
  | _, [] => []
  | place, item :: items =>
    (if item.IsCut cuts place then item.spilled else item.meant) ++
      left cuts (place + Utf8.size item.text) items

/-- Only string terminators have a middle. -/
theorem middle?_eq_some {item : Item} {middle : Nat} (h : item.middle? = some middle) :
    ∃ body hbody, item = .sequence (.command body .string hbody) ∧
      middle = Utf8.size body + 3 := by
  cases item with
  | plain c hc => cases h
  | sequence s =>
    cases s with
    | command body terminator hbody =>
      cases terminator with
      | bell => cases h
      | string => exact ⟨body, hbody, rfl, (Option.some.inj h).symm⟩
    | control _ _ _ _ => cases h
    | charset _ _ _ _ => cases h
    | function _ _ => cases h

theorem size_command (body : List Char) (hbody : ∀ c ∈ body, c ≠ bell ∧ c ≠ esc) :
    Utf8.size (Item.sequence (.command body .string hbody)).text = Utf8.size body + 4 := by
  show 1 + (1 + Utf8.size (body ++ Terminator.string.text)) = _
  rw [Utf8.size_append, show Utf8.size Terminator.string.text = 2 from rfl]
  omega

theorem middle?_lt {item : Item} {middle : Nat} (h : item.middle? = some middle) :
    middle < Utf8.size item.text := by
  obtain ⟨body, hbody, rfl, rfl⟩ := middle?_eq_some h
  rw [size_command]
  omega

theorem mem_middles_cons {cut place : Nat} {item : Item} {items : List Item} :
    cut ∈ middles place (item :: items) ↔
      (∃ middle, item.middle? = some middle ∧ place + middle = cut) ∨
        cut ∈ middles (place + Utf8.size item.text) items := by
  rw [middles, List.mem_append, Option.mem_toList, Option.map_eq_some_iff]

theorem left_append (cuts : List Nat) (place : Nat) (items more : List Item) :
    left cuts place (items ++ more) =
      left cuts place items ++ left cuts (place + Utf8.size (render items)) more := by
  induction items generalizing place with
  | nil => rfl
  | cons item items ih =>
    simp only [List.cons_append, left, ih, render_cons, Utf8.size_append, List.append_assoc,
      Nat.add_assoc]

/-- Cuts behind the items leave their texts. -/
theorem left_of_le {cuts : List Nat} {place : Nat} {items : List Item}
    (h : ∀ cut ∈ cuts, place + Utf8.size (render items) ≤ cut) :
    left cuts place items = meant items := by
  induction items generalizing place with
  | nil => rfl
  | cons item items ih =>
    have hrest : ∀ cut ∈ cuts, place + Utf8.size item.text + Utf8.size (render items) ≤ cut := by
      intro cut hcut
      have hle := h cut hcut
      rw [render_cons, Utf8.size_append] at hle
      omega
    have hnot : ¬item.IsCut cuts place := by
      rintro ⟨middle, hmiddle, hcut⟩
      have hlt := middle?_lt hmiddle
      have hle := hrest _ hcut
      omega
    rw [left, if_neg hnot, ih hrest, meant_cons]

/-- A cut that is nobody's middle makes no difference. -/
theorem left_cons_of_not_mem {cut place : Nat} {items : List Item}
    (h : cut ∉ middles place items) (cuts : List Nat) :
    left (cut :: cuts) place items = left cuts place items := by
  induction items generalizing place with
  | nil => rfl
  | cons item items ih =>
    obtain ⟨hitem, hitems⟩ := not_or.mp fun hmem => h (mem_middles_cons.mpr hmem)
    have hcut : item.IsCut (cut :: cuts) place ↔ item.IsCut cuts place := by
      refine exists_congr fun middle => and_congr_right fun hmiddle => ?_
      rw [List.mem_cons]
      exact or_iff_right fun heq => hitem ⟨middle, hmiddle, heq⟩
    simp only [left, hcut, ih hitems]

theorem lt_of_mem_middles {cut place : Nat} {items : List Item} (h : cut ∈ middles place items) :
    place < cut := by
  induction items generalizing place with
  | nil => exact absurd h List.not_mem_nil
  | cons item items ih =>
    rcases mem_middles_cons.mp h with ⟨middle, hmiddle, rfl⟩ | hmem
    · obtain ⟨body, -, -, rfl⟩ := middle?_eq_some hmiddle
      omega
    · exact Nat.lt_of_le_of_lt (Nat.le_add_right _ _) (ih hmem)

/-- The middle of a terminator is three bytes behind the body, and one before its end. -/
theorem left_command_of_mem {cuts : List Nat} {place : Nat} {body : List Char}
    (hbody : ∀ c ∈ body, c ≠ bell ∧ c ≠ esc) (h : place + (Utf8.size body + 3) ∈ cuts)
    (items : List Item) :
    left cuts place (.sequence (.command body .string hbody) :: items) =
      ']' :: body ++ ['\\'] ++ left cuts (place + (Utf8.size body + 4)) items := by
  rw [left, if_pos ⟨_, rfl, h⟩, size_command, Item.spilled]

/-! ## What spills is seen -/

theorem visible_spilled {item : Item} {middle : Nat} (h : item.middle? = some middle) :
    item.meant = [] ∧ 0 < (visible item.spilled).length := by
  obtain ⟨body, hbody, rfl, -⟩ := middle?_eq_some h
  refine ⟨rfl, ?_⟩
  rw [Item.spilled, List.cons_append, Text.visible_cons_of_not_blank (by decide), List.length_cons]
  exact Nat.succ_pos _

/-- Nothing that is meant to be read is hidden by what spills. -/
theorem meant_sublist_left (cuts : List Nat) (place : Nat) (items : List Item) :
    (visible (meant items)).Sublist (visible (left cuts place items)) := by
  induction items generalizing place with
  | nil => exact List.Sublist.refl _
  | cons item items ih =>
    rw [meant_cons, left, Text.visible_append, Text.visible_append]
    refine List.Sublist.append ?_ (ih _)
    split
    next hcut =>
      obtain ⟨middle, hmiddle, -⟩ := hcut
      rw [(visible_spilled hmiddle).1]
      exact List.nil_sublist _
    next => exact List.Sublist.refl _

/-- **The texts alone are left exactly if no cut falls in the middle of a terminator.** -/
theorem visible_left_iff (cuts : List Nat) (place : Nat) (items : List Item) :
    visible (left cuts place items) = visible (meant items) ↔
      ∀ cut ∈ cuts, cut ∉ middles place items := by
  induction items generalizing place with
  | nil => exact ⟨fun _ _ _ => List.not_mem_nil, fun _ => rfl⟩
  | cons item items ih =>
    rw [meant_cons, left, Text.visible_append, Text.visible_append]
    split
    next hcut =>
      obtain ⟨middle, hmiddle, hmem⟩ := hcut
      obtain ⟨hmeant, hseen⟩ := visible_spilled hmiddle
      have hle := (meant_sublist_left cuts (place + Utf8.size item.text) items).length_le
      refine iff_of_false (fun heq => ?_) fun h =>
        h _ hmem (mem_middles_cons.mpr (.inl ⟨middle, hmiddle, rfl⟩))
      -- The texts behind are there either way, and the bracket comes on top of them.
      have hlength := congrArg List.length heq
      rw [hmeant, Text.visible_nil, List.nil_append, List.length_append] at hlength
      omega
    next hcut =>
      rw [List.append_cancel_left_eq, ih]
      refine forall₂_congr fun cut hmem => ?_
      rw [mem_middles_cons, not_or]
      refine (and_iff_right ?_).symm
      rintro ⟨middle, hmiddle, rfl⟩
      exact hcut ⟨middle, hmiddle, hmem⟩

end TerminalSession.Escape
