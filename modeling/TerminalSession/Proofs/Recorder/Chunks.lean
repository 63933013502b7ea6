import TerminalSession.Proofs.Escape.Spill
import TerminalSession.Proofs.Escape.Unfinished
import TerminalSession.Proofs.Recorder.Arrivals

/-!
# Output in chunks

A recorder cleans each chunk of output by itself, once what the chunk leaves unfinished is held
back. This module says what of well-formed output reaches the transcript that way, for every way of
cutting its bytes into chunks.

The reading is followed from chunk to chunk. Before each, what is held is either the beginning of an
item, which the next chunks complete, or the escape of a string terminator whose system command was
already cleaned without it (`Waits`). One chunk leads from one such state to another (`read_chunk`),
and in the end the texts are what `Escape.left` says: the second state is entered exactly at a cut
in the middle of a terminator, and then, and only then, the command spills.

Texts are compared with blanks ignored, and output that is not well-formed is left out.
-/

set_option autoImplicit false

namespace TerminalSession.Recorder

open Escape (Item Sequence Terminator Settled Open esc escByte render meant left middles strip)
open Text (visible)
open Utf8 (encode)

/-- The cleaned texts that a recorder comes to show, chunk by chunk. -/
def cleanedTexts (cfg : Config) : Recorder → List (Nat × Bytes) → List (List Char)
  | _, [] => []
  | r, (now, data) :: coming =>
    shownText r.held data :: cleanedTexts cfg (output cfg now data r).1 coming

/-- The same, without the recorder: what is held back is all that one chunk hands on. -/
def texts : Bytes → List Bytes → List (List Char)
  | _, [] => []
  | held, data :: coming => shownText held data :: texts (heldAfter held data) coming

theorem cleanedTexts_eq (cfg : Config) {r : Recorder} (h : r.stopped = false)
    (chunks : List (Nat × Bytes)) :
    cleanedTexts cfg r chunks = texts r.held (chunks.map (·.2)) := by
  induction chunks generalizing r with
  | nil => rfl
  | cons chunk coming ih =>
    obtain ⟨now, data⟩ := chunk
    have haside := showText_aside cfg now (shownText r.held data)
      { r with held := heldAfter r.held data }
    have hstopped := (stopped_eq_of_aside haside).trans h
    rw [cleanedTexts, output_of_running cfg now data h, ih hstopped, held_eq_of_aside haside]
    rfl

/-- Where chunks end, counted in bytes from a place on. -/
def ends : Nat → List Bytes → List Nat
  | _, [] => []
  | place, data :: coming => (place + data.length) :: ends (place + data.length) coming

theorem le_of_mem_ends {cut place : Nat} {chunks : List Bytes} (h : cut ∈ ends place chunks) :
    place ≤ cut := by
  induction chunks generalizing place with
  | nil => exact absurd h List.not_mem_nil
  | cons data coming ih =>
    rcases List.mem_cons.mp h with rfl | hmem
    · exact Nat.le_add_right _ _
    · exact Nat.le_trans (Nat.le_add_right _ _) (ih hmem)

/-! ## One cut -/

/-- Bytes that begin the first of some items and do not complete it. -/
inductive Begins : Bytes → List Item → Prop where
  | nothing (items : List Item) : Begins [] items
  | part {item : Item} {part missing : Bytes} (items : List Item)
      (h : part ++ missing = encode item.text) (hpart : part ≠ []) (hmissing : missing ≠ []) :
      Begins part (item :: items)

/-- The first bytes of well-formed output are whole items and the beginning of one. -/
theorem exists_cut {raw rest : Bytes} {items : List Item}
    (h : raw ++ rest = encode (render items)) :
    ∃ front back part, items = front ++ back ∧ raw = encode (render front) ++ part ∧
      Begins part back := by
  induction items generalizing raw with
  | nil =>
    obtain ⟨rfl, -⟩ := List.append_eq_nil_iff.mp h
    exact ⟨[], [], [], rfl, rfl, .nothing []⟩
  | cons item items ih =>
    rw [Escape.render_cons, Utf8.encode_append] at h
    rcases List.append_eq_append_iff.mp h with ⟨missing, hitem, -⟩ | ⟨more, rfl, hmore⟩
    · by_cases hmissing : missing = []
      · refine ⟨[item], items, [], rfl, ?_, .nothing items⟩
        rw [hmissing, List.append_nil] at hitem
        rw [← hitem, Escape.render_cons, Escape.render_nil, List.append_nil, List.append_nil]
      · by_cases hraw : raw = []
        · exact ⟨[], item :: items, [], rfl, hraw, .nothing _⟩
        · exact ⟨[], item :: items, raw, rfl, rfl, .part items hitem.symm hraw hmissing⟩
    · obtain ⟨front, back, part, rfl, hrest, hbegins⟩ := ih hmore.symm
      refine ⟨item :: front, back, part, rfl, ?_, hbegins⟩
      rw [hrest, Escape.render_cons, Utf8.encode_append, List.append_assoc]

/-- Items that can be held back. -/
def Fit (items : List Item) : Prop := ∀ item ∈ items, Utf8.size item.text ≤ holdLimit

theorem fit_of_sequences {items : List Item}
    (h : ∀ s, .sequence s ∈ items → Utf8.size s.text ≤ holdLimit) : Fit items := by
  intro item hitem
  cases item with
  | plain c hc => exact Nat.le_trans c.utf8Size_le_four (by decide)
  | sequence s => exact h s hitem

theorem length_lt_of_append {item : Item} {part missing : Bytes}
    (h : part ++ missing = encode item.text) (hmissing : missing ≠ []) :
    part.length < Utf8.size item.text := by
  have hpos := List.length_pos_iff.mpr hmissing
  rw [← Utf8.length_encode, ← h, List.length_append]
  omega

theorem Begins.length_le {part : Bytes} {items : List Item} (h : Begins part items)
    (hfit : Fit items) : part.length ≤ holdLimit := by
  cases h with
  | nothing => exact Nat.zero_le _
  | part items h _ hmissing =>
    exact Nat.le_of_lt (Nat.lt_of_lt_of_le (length_lt_of_append h hmissing)
      (hfit _ (List.mem_cons_self ..)))

theorem splitTail_of_tailStart {text : List Char} {tail : Bytes}
    (h : Escape.tailStart (encode text ++ tail) = (encode text).length)
    (hlength : tail.length ≤ holdLimit) :
    splitTail (encode text ++ tail) = (encode text, tail) := by
  rw [splitTail, h, List.length_append, Nat.add_sub_cancel_left, if_pos hlength, List.take_left,
    List.drop_left]

theorem visible_clean (text : List Char) :
    visible (clean (encode text)) = visible (strip text) := by
  rw [clean, Utf8.decode_encode, Text.visible_forTranscript]

/-- A part of a sequence that is open does not end in the middle of a terminator. -/
theorem length_ne_middle {s : Sequence} {part missing : Bytes} (hopen : Open part)
    (h : part ++ missing = encode s.body) {middle : Nat}
    (hmiddle : (Item.sequence s).middle? = some middle) : part.length + 1 ≠ middle := by
  intro hlength
  obtain ⟨body, hbody, hitem, rfl⟩ := Escape.middle?_eq_some hmiddle
  cases hitem
  have hwhole : part ++ missing = (encode (']' :: body) ++ [escByte]) ++ [0x5C] := by
    rw [h, Sequence.body, Utf8.encode_append, List.append_assoc]
    rfl
  have hpart : part = encode (']' :: body) ++ [escByte] := by
    refine (List.append_inj hwhole ?_).1
    rw [List.length_append, Utf8.length_encode]
    show part.length = 1 + Utf8.size body + 1
    omega
  rw [hpart] at hopen
  exact hopen.1 (List.mem_append_right _ (List.mem_singleton_self _))

/-- Where settled output is cut, what the cut leaves unfinished is held back: the part of the next
item that is there. The one exception is the cut in the middle of a terminator. -/
theorem splitTail_cut {text : List Char} (hsettled : Settled (encode text)) {part : Bytes}
    {back : List Item} (hbegins : Begins part back) (hfit : Fit back) :
    (splitTail (encode text ++ part) = (encode text, part) ∧
        ∀ place, place + part.length ∉ middles place back) ∨
      ∃ body hbody more, back = .sequence (.command body .string hbody) :: more ∧
        part = encode (esc :: ']' :: body) ++ [escByte] := by
  have hlength := hbegins.length_le hfit
  cases hbegins with
  | nothing =>
    refine .inl ⟨splitTail_of_tailStart ?_ hlength, fun place hmem => ?_⟩
    · rw [List.append_nil, Escape.tailStart_settled hsettled]
    · exact absurd (Escape.lt_of_mem_middles hmem) (Nat.lt_irrefl _)
  | @part item part missing items h hpart hmissing =>
    -- The part ends inside the item, so no terminator further on has its middle there.
    have hbehind (place : Nat)
        (hitem : ∀ middle, item.middle? = some middle → part.length ≠ middle) :
        place + part.length ∉ middles place (item :: items) := by
      have hlt := length_lt_of_append h hmissing
      intro hmem
      rcases Escape.mem_middles_cons.mp hmem with ⟨middle, hmiddle, heq⟩ | hmem
      · exact hitem middle hmiddle (Nat.add_left_cancel heq).symm
      · have hplace := Escape.lt_of_mem_middles hmem
        omega
    cases item with
    | plain c hc =>
      have hchar : part ++ missing = String.utf8EncodeChar c := by
        rw [h]
        exact List.append_nil _
      refine .inl ⟨splitTail_of_tailStart ?_ hlength, fun place => hbehind place nofun⟩
      exact Escape.tailStart_cut hsettled hc hchar hmissing
    | sequence s =>
      obtain ⟨first, part, rfl⟩ := List.exists_cons_of_ne_nil hpart
      obtain ⟨rfl, hbody⟩ := List.cons_eq_cons.mp h
      rcases Escape.open_part hbody hmissing with hopen | ⟨body, hb, rfl, rfl, -⟩
      · refine .inl ⟨splitTail_of_tailStart (Escape.tailStart_open text hopen) hlength, ?_⟩
        exact fun place => hbehind place fun middle hmiddle => length_ne_middle hopen hbody hmiddle
      · exact .inr ⟨body, hb, items, rfl, rfl⟩

/-- There the system command is cleaned without its terminator. -/
theorem splitTail_broken (text body : List Char) :
    splitTail (encode text ++ (encode (esc :: ']' :: body) ++ [escByte])) =
      (encode (text ++ esc :: ']' :: body), [escByte]) := by
  rw [← List.append_assoc, ← Utf8.encode_append]
  exact splitTail_of_tailStart (Escape.tailStart_open _ Escape.open_nil) (by decide)

/-! ## From chunk to chunk -/

/-- What a recorder holds between two chunks: the beginning of an item, or, when a system command
was cut in the middle of its terminator, the escape of that terminator. Before the items that are to
come there stands then what is left of the command, the terminator itself. -/
inductive Waits : (lead : List Char) → (held : Bytes) → List Item → Prop where
  | within {held : Bytes} {items : List Item} (h : Begins held items) : Waits [] held items
  | broken (items : List Item) : Waits Terminator.string.text [escByte] items

/-- Between two chunks: what is held, and what is to come, make up the items that are to come. -/
structure Reads (lead : List Char) (items : List Item) (held coming : Bytes) : Prop where
  waits : Waits lead held items
  fit : Fit items
  bytes : held ++ coming = encode (lead ++ render items)

/-- What is still to be seen of items whose lead begins at a place, cut at some places. -/
def toSee (lead : List Char) (items : List Item) (place : Nat) (cuts : List Nat) : List Char :=
  visible (strip lead ++ left cuts (place + Utf8.size lead) items)

theorem strip_broken : strip Terminator.string.text = ['\\'] := by
  have h := Escape.strip_terminator []
  rwa [List.append_nil, Escape.strip_nil] at h

theorem Waits.settled {lead : List Char} {held : Bytes} {items : List Item}
    (h : Waits lead held items) (front : List Item) : Settled (encode (lead ++ render front)) := by
  cases h with
  | within _ => exact Escape.settled_render front
  | broken _ =>
    rw [Utf8.encode_append]
    exact Settled.append rfl (Escape.settled_render front)

theorem Waits.strip_append {lead : List Char} {held : Bytes} {items : List Item}
    (h : Waits lead held items) (more : List Char) :
    strip (lead ++ more) = strip lead ++ strip more := by
  cases h with
  | within _ => rw [Escape.strip_nil, List.nil_append, List.nil_append]
  | broken _ => rw [Escape.strip_terminator, strip_broken, List.singleton_append]

/-- A chunk completes what is held and more, or it is empty and a terminator still broken. -/
theorem Reads.cut {lead : List Char} {items : List Item} {held data coming : Bytes}
    (h : Reads lead items held (data ++ coming)) :
    (lead = Terminator.string.text ∧ held = [escByte] ∧ data = []) ∨
      ∃ front back part, items = front ++ back ∧
        held ++ data = encode (lead ++ render front) ++ part ∧ Begins part back := by
  obtain ⟨hwaits, -, hbytes⟩ := h
  rw [← List.append_assoc] at hbytes
  cases hwaits with
  | within _ => exact .inr (exists_cut hbytes)
  | broken _ =>
    -- The escape is held, so what comes first is the backslash, and items are whole behind it.
    cases data with
    | nil => exact .inl ⟨rfl, rfl, rfl⟩
    | cons b data =>
      have hspelt : escByte :: b :: (data ++ coming) = escByte :: 0x5C :: encode (render items) :=
        hbytes
      obtain ⟨-, htail⟩ := List.cons_eq_cons.mp hspelt
      obtain ⟨rfl, hmore⟩ := List.cons_eq_cons.mp htail
      obtain ⟨front, back, part, hitems, hdata, hbegins⟩ := exists_cut hmore
      refine .inr ⟨front, back, part, hitems, ?_, hbegins⟩
      have hraw : data = encode (render front) ++ part := hdata
      rw [hraw, Utf8.encode_append, List.append_assoc]
      rfl

theorem toSee_append {lead : List Char} {front : List Item} {place : Nat} {cuts : List Nat}
    (h : ∀ cut ∈ cuts, place + Utf8.size lead + Utf8.size (render front) ≤ cut) (back : List Item) :
    toSee lead (front ++ back) place cuts =
      visible (strip lead ++ meant front) ++
        visible (left cuts (place + Utf8.size lead + Utf8.size (render front)) back) := by
  rw [toSee, Escape.left_append, Escape.left_of_le h, ← Text.visible_append, List.append_assoc]

theorem toSee_nil (items : List Item) (place : Nat) (cuts : List Nat) :
    toSee [] items place cuts = visible (left cuts place items) := by
  rw [toSee, Escape.strip_nil, List.nil_append]
  rfl

/-- A cut, and others behind it, are all behind what is before it. -/
theorem le_of_mem_cons {before cut : Nat} {cuts : List Nat} (h : before ≤ cut)
    (hcuts : ∀ other ∈ cuts, cut ≤ other) : ∀ other ∈ cut :: cuts, before ≤ other :=
  List.forall_mem_cons.mpr ⟨h, fun other hother => Nat.le_trans h (hcuts other hother)⟩

/-- A chunk can be read on: it leads to such a state again, and what is seen of its text, and what
is then still to be seen, is what was to be seen before, where the end of the chunk is one more cut.
-/
def ReadsOn (lead : List Char) (items : List Item) (place : Nat) (held data coming : Bytes) :
    Prop :=
  ∃ lead' items' place', Reads lead' items' (heldAfter held data) coming ∧
    place' + (heldAfter held data).length = place + held.length + data.length ∧
    ∀ cuts, (∀ cut ∈ cuts, place + held.length + data.length ≤ cut) →
      toSee lead items place ((place + held.length + data.length) :: cuts) =
        visible (shownText held data) ++ toSee lead' items' place' cuts

/-- While a terminator is broken, an empty chunk changes nothing. -/
theorem readsOn_nil {items : List Item} {coming : Bytes}
    (h : Reads Terminator.string.text items [escByte] ([] ++ coming)) (place : Nat) :
    ReadsOn Terminator.string.text items place [escByte] [] coming := by
  have hsplit : splitTail ([escByte] ++ []) = (encode [], [escByte]) :=
    splitTail_of_tailStart (Escape.tailStart_open [] Escape.open_nil) (by decide)
  have hheld : heldAfter [escByte] [] = [escByte] := congrArg Prod.snd hsplit
  refine ⟨Terminator.string.text, items, place, ?_, ?_, fun cuts _ => ?_⟩
  · rw [hheld]
    exact h
  · rw [hheld]
    rfl
  · have hbefore : place + [escByte].length + ([] : Bytes).length ∉
        middles (place + Utf8.size Terminator.string.text) items := by
      intro hmem
      have hlt : place + 2 < place + 1 + 0 := Escape.lt_of_mem_middles hmem
      omega
    rw [toSee, Escape.left_cons_of_not_mem hbefore, shownText, hsplit, visible_clean,
      Escape.strip_nil, Text.visible_nil, List.nil_append, toSee]

/-- A chunk that ends behind some items and in none, or inside one and not in the middle of its
terminator. -/
theorem readsOn_within {lead : List Char} {front back : List Item} {held data coming part : Bytes}
    {place : Nat} (hwaits : Waits lead held (front ++ back)) (hbegins : Begins part back)
    (hfit : Fit back) (hraw : held ++ data = encode (lead ++ render front) ++ part)
    (hcoming : part ++ coming = encode (render back))
    (hend : place + held.length + data.length =
      place + Utf8.size lead + Utf8.size (render front) + part.length)
    (hsplit : splitTail (encode (lead ++ render front) ++ part) =
      (encode (lead ++ render front), part))
    (hmiddle : ∀ place, place + part.length ∉ middles place back) :
    ReadsOn lead (front ++ back) place held data coming := by
  have hheld : heldAfter held data = part := by rw [heldAfter, hraw, hsplit]
  have hclean : visible (clean (encode (lead ++ render front))) =
      visible (strip lead ++ meant front) := by
    rw [visible_clean, hwaits.strip_append, Escape.strip_render]
  refine ⟨[], back, place + Utf8.size lead + Utf8.size (render front), ?_, ?_, fun cuts hcuts => ?_⟩
  · rw [hheld]
    exact ⟨.within hbegins, hfit, hcoming⟩
  · rw [hheld, hend]
  · rw [hend] at hcuts ⊢
    rw [toSee_append (le_of_mem_cons (Nat.le_add_right _ _) hcuts),
      Escape.left_cons_of_not_mem (hmiddle _), shownText, hraw, hsplit, hclean, toSee_nil]

/-- A chunk that ends in the middle of a terminator: the command is seen now, and the backslash when
the terminator is complete. -/
theorem readsOn_broken {lead : List Char} {front more : List Item} {body : List Char}
    {hbody : ∀ c ∈ body, c ≠ Escape.bell ∧ c ≠ esc} {held data coming : Bytes} {place : Nat}
    (hwaits : Waits lead held (front ++ .sequence (.command body .string hbody) :: more))
    (hfit : Fit more)
    (hraw : held ++ data =
      encode (lead ++ render front) ++ (encode (esc :: ']' :: body) ++ [escByte]))
    (hcoming : (encode (esc :: ']' :: body) ++ [escByte]) ++ coming =
      encode (render (.sequence (.command body .string hbody) :: more)))
    (hend : place + held.length + data.length =
      place + Utf8.size lead + Utf8.size (render front) +
        (encode (esc :: ']' :: body) ++ [escByte]).length) :
    ReadsOn lead (front ++ .sequence (.command body .string hbody) :: more) place held data
      coming := by
  have hsplit := splitTail_broken (lead ++ render front) body
  have hheld : heldAfter held data = [escByte] := by rw [heldAfter, hraw, hsplit]
  have hpart : (encode (esc :: ']' :: body) ++ [escByte]).length = Utf8.size body + 3 := by
    rw [List.length_append, Utf8.length_encode]
    show 1 + (1 + Utf8.size body) + 1 = _
    omega
  have hrest : [escByte] ++ coming = encode (Terminator.string.text ++ render more) := by
    have htext : render (.sequence (.command body .string hbody) :: more) =
        (esc :: ']' :: body) ++ (Terminator.string.text ++ render more) := by
      rw [← List.append_assoc]
      rfl
    rw [List.append_assoc, htext, Utf8.encode_append] at hcoming
    exact List.append_cancel_left hcoming
  have hclean : visible (clean (encode (lead ++ render front ++ esc :: ']' :: body))) =
      visible (strip lead ++ meant front) ++ visible (']' :: body) := by
    rw [visible_clean, List.append_assoc, hwaits.strip_append, Escape.strip_render_append,
      Escape.strip_unended hbody, ← List.append_assoc, Text.visible_append]
  rw [hpart] at hend
  refine ⟨Terminator.string.text, more,
    place + Utf8.size lead + Utf8.size (render front) + (Utf8.size body + 2), ?_, ?_,
    fun cuts hcuts => ?_⟩
  · rw [hheld]
    exact ⟨.broken more, hfit, hrest⟩
  · rw [hheld, hend]
    rfl
  · have hplace : place + Utf8.size lead + Utf8.size (render front) + (Utf8.size body + 2) +
        Utf8.size Terminator.string.text =
          place + Utf8.size lead + Utf8.size (render front) + (Utf8.size body + 4) := rfl
    rw [hend] at hcuts ⊢
    have hbefore : place + Utf8.size lead + Utf8.size (render front) + (Utf8.size body + 3) ∉
        middles (place + Utf8.size lead + Utf8.size (render front) + (Utf8.size body + 4))
          more := by
      intro hmem
      have hlt := Escape.lt_of_mem_middles hmem
      omega
    rw [toSee_append (le_of_mem_cons (Nat.le_add_right _ _) hcuts),
      Escape.left_command_of_mem hbody (List.mem_cons_self ..),
      Escape.left_cons_of_not_mem hbefore, shownText, hraw, hsplit, hclean, toSee, strip_broken,
      hplace, List.append_assoc (']' :: body), Text.visible_append (']' :: body), List.append_assoc]

/-- **One chunk** can always be read on. -/
theorem read_chunk {lead : List Char} {items : List Item} {held data coming : Bytes}
    (h : Reads lead items held (data ++ coming)) (place : Nat) :
    ReadsOn lead items place held data coming := by
  rcases h.cut with ⟨rfl, rfl, rfl⟩ | ⟨front, back, part, rfl, hraw, hbegins⟩
  · exact readsOn_nil h place
  · have hfit : Fit back := fun item hitem => h.fit item (List.mem_append_right _ hitem)
    have hcoming : part ++ coming = encode (render back) := by
      have hall := h.bytes
      rw [← List.append_assoc, hraw, List.append_assoc, Escape.render_append,
        ← List.append_assoc lead, Utf8.encode_append (lead ++ render front)] at hall
      exact List.append_cancel_left hall
    have hend : place + held.length + data.length =
        place + Utf8.size lead + Utf8.size (render front) + part.length := by
      have hlength := congrArg List.length hraw
      rw [List.length_append, List.length_append, Utf8.length_encode, Utf8.size_append] at hlength
      omega
    rcases splitTail_cut (h.waits.settled front) hbegins hfit with
      ⟨hsplit, hmiddle⟩ | ⟨body, hbody, more, rfl, rfl⟩
    · exact readsOn_within h.waits hbegins hfit hraw hcoming hend hsplit hmiddle
    · have hmore : Fit more := fun item hitem => hfit item (List.mem_cons_of_mem _ hitem)
      exact readsOn_broken h.waits hmore hraw hcoming hend

theorem encode_text_ne_nil (item : Item) : encode item.text ≠ [] := by
  cases item with
  | plain c hc =>
    intro h
    have hnil : String.utf8EncodeChar c = [] := (List.append_eq_nil_iff.mp h).1
    exact absurd (String.length_utf8EncodeChar c) (by
      rw [hnil]
      exact Nat.ne_of_lt c.utf8Size_pos)
  | sequence s => exact List.cons_ne_nil _ _

/-- Where the output ends, every item is completed and no terminator broken. -/
theorem Reads.end {lead : List Char} {items : List Item} {held : Bytes}
    (h : Reads lead items held []) : lead = [] ∧ items = [] := by
  obtain ⟨hwaits, -, hbytes⟩ := h
  rw [List.append_nil] at hbytes
  cases hwaits with
  | within hbegins =>
    cases hbegins with
    | nothing =>
      cases items with
      | nil => exact ⟨rfl, rfl⟩
      | cons item items =>
        rw [List.nil_append, Escape.render_cons, Utf8.encode_append] at hbytes
        exact absurd (List.append_eq_nil_iff.mp hbytes.symm).1 (encode_text_ne_nil item)
    | part items hpart _ hmissing =>
      have hlt := length_lt_of_append hpart hmissing
      rw [hbytes, Utf8.length_encode, List.nil_append, Escape.render_cons, Utf8.size_append] at hlt
      omega
  | broken _ =>
    obtain ⟨-, htail⟩ := List.cons_eq_cons.mp hbytes
    exact absurd htail (List.cons_ne_nil _ _).symm

/-- **All chunks.** What is seen of the texts is what the cuts at the ends of the chunks leave. -/
theorem visible_texts {lead : List Char} {items : List Item} {held : Bytes} {chunks : List Bytes}
    (h : Reads lead items held chunks.flatten) (place : Nat) :
    visible (texts held chunks).flatten =
      toSee lead items place (ends (place + held.length) chunks) := by
  -- Along the chunks; the place moves on to where the held bytes begin.
  induction chunks generalizing lead items held place with
  | nil =>
    obtain ⟨rfl, rfl⟩ := h.end
    rw [toSee_nil]
    rfl
  | cons data coming ih =>
    obtain ⟨lead', items', place', hreads, hplace, hsee⟩ := read_chunk h place
    rw [texts, List.flatten_cons, Text.visible_append, ih hreads place', hplace, ends,
      hsee _ fun cut hcut => le_of_mem_ends hcut]

/-- What a recorder that has just begun shows of well-formed output. -/
theorem visible_cleanedTexts (cfg : Config) (began : Nat) {items : List Item}
    {chunks : List (Nat × Bytes)}
    (hsizes : ∀ s, .sequence s ∈ items → Utf8.size s.text ≤ holdLimit)
    (hchunks : (chunks.map (·.2)).flatten = encode (render items)) :
    visible (cleanedTexts cfg (start cfg began) chunks).flatten =
      visible (left (ends 0 (chunks.map (·.2))) 0 items) := by
  have hreads : Reads [] items [] (chunks.map (·.2)).flatten :=
    ⟨.within (.nothing items), fit_of_sequences hsizes, hchunks⟩
  rw [cleanedTexts_eq cfg rfl]
  exact (visible_texts hreads 0).trans (toSee_nil items 0 _)

/-- **Sequences leave no trace, but for a terminator that is cut in two.** Cut well-formed output
into any chunks, each with its time, and give them to a recorder that has just begun. Then what is
seen of the texts it comes to show is what the ends of the chunks leave of the items: nothing that
is meant to be read is lost, and nothing else is seen exactly if no chunk ends in the middle of a
string terminator. -/
theorem cleanedTexts_seen (cfg : Config) (began : Nat) (items : List Item)
    (chunks : List (Nat × Bytes))
    (hsizes : ∀ s, .sequence s ∈ items → Utf8.size s.text ≤ holdLimit)
    (hchunks : (chunks.map (·.2)).flatten = encode (render items)) :
    visible (cleanedTexts cfg (start cfg began) chunks).flatten =
        visible (left (ends 0 (chunks.map (·.2))) 0 items) ∧
      (visible (meant items)).Sublist
        (visible (cleanedTexts cfg (start cfg began) chunks).flatten) ∧
      (visible (cleanedTexts cfg (start cfg began) chunks).flatten = visible (meant items) ↔
        ∀ cut ∈ ends 0 (chunks.map (·.2)), cut ∉ middles 0 items) := by
  rw [visible_cleanedTexts cfg began hsizes hchunks]
  exact ⟨rfl, Escape.meant_sublist_left _ 0 items, Escape.visible_left_iff _ 0 items⟩

/-- A window title between two letters. -/
def titled : List Item :=
  [.plain 'a' (by decide),
    .sequence (.command ['t'] .string (List.forall_mem_singleton.mpr (by decide))),
    .plain 'b' (by decide)]

theorem size_titled (s : Sequence) (h : .sequence s ∈ titled) : Utf8.size s.text ≤ holdLimit := by
  simp only [titled, List.mem_cons, List.not_mem_nil, reduceCtorEq, Item.sequence.injEq, or_false,
    false_or] at h
  rw [h]
  decide

/-- A recorder that hands its buffer over every second. -/
def brisk : Config := ⟨4096, 1000, by decide, by decide⟩

/-- Cut behind its bracket and behind its terminator, the title leaves no trace. -/
theorem titled_seen_apart :
    (∀ s, .sequence s ∈ titled → Utf8.size s.text ≤ holdLimit) ∧
      ([(0, [0x61, 0x1B, 0x5D]), (5, [0x74, 0x1B, 0x5C]), (9, [0x62])].map
        fun chunk : Nat × Bytes => chunk.2).flatten = encode (render titled) ∧
      visible (cleanedTexts brisk (start brisk 0)
        [(0, [0x61, 0x1B, 0x5D]), (5, [0x74, 0x1B, 0x5C]), (9, [0x62])]).flatten = ['a', 'b'] := by
  have hchunks : ([(0, [0x61, 0x1B, 0x5D]), (5, [0x74, 0x1B, 0x5C]), (9, [0x62])].map
      fun chunk : Nat × Bytes => chunk.2).flatten = encode (render titled) := by decide
  refine ⟨size_titled, hchunks, ?_⟩
  exact (cleanedTexts_seen brisk 0 titled _ size_titled hchunks).2.2.mpr (by decide)

/-- Cut in the middle of its terminator, it comes out as text, which nobody is meant to read. -/
theorem titled_seen_cut :
    (∀ s, .sequence s ∈ titled → Utf8.size s.text ≤ holdLimit) ∧
      ([(0, [0x61, 0x1B, 0x5D, 0x74, 0x1B]), (5, [0x5C, 0x62])].map
        fun chunk : Nat × Bytes => chunk.2).flatten = encode (render titled) ∧
      visible (meant titled) = ['a', 'b'] ∧
      visible (cleanedTexts brisk (start brisk 0)
        [(0, [0x61, 0x1B, 0x5D, 0x74, 0x1B]), (5, [0x5C, 0x62])]).flatten =
          ['a', ']', 't', '\\', 'b'] := by
  have hchunks : ([(0, [0x61, 0x1B, 0x5D, 0x74, 0x1B]), (5, [0x5C, 0x62])].map
      fun chunk : Nat × Bytes => chunk.2).flatten = encode (render titled) := by decide
  refine ⟨size_titled, hchunks, by decide, ?_⟩
  rw [visible_cleanedTexts brisk 0 size_titled hchunks]
  decide

end TerminalSession.Recorder
