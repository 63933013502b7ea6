import TerminalSession.Escape.Tail
import TerminalSession.Proofs.Escape.Sequence
import TerminalSession.Proofs.Utf8.Codec

/-!
# Where the unfinished end of well-formed output begins

`tailStart` judges a chunk by its last escape alone. For well-formed output that judgement is right
at every cut but one:

- a chunk that ends between two items, or inside a character, is unfinished from there on and no
  earlier (`tailStart_cut`), because every item is settled: its own last escape is finished;
- a chunk that ends inside a sequence is unfinished from the sequence's escape on (`open_part`,
  `tailStart_open`);
- the exception is the cut inside a string terminator. There the last escape is the terminator's, so
  the system command that it ends is taken for finished while its terminator is not there.

Chunks of malformed output are not covered.
-/

set_option autoImplicit false

namespace TerminalSession.Escape

open Utf8 (encode)

/-! ## The last escape -/

theorem fromLastEscape_of_not_mem {bytes : Bytes} (h : escByte ∉ bytes) :
    fromLastEscape bytes = [] := by
  induction bytes with
  | nil => rfl
  | cons b bytes ih =>
    obtain ⟨hb, hbytes⟩ := List.ne_and_not_mem_of_not_mem_cons h
    simp only [fromLastEscape, ih hbytes, if_neg hb.symm]

theorem fromLastEscape_esc {body : Bytes} (h : escByte ∉ body) :
    fromLastEscape (escByte :: body) = escByte :: body := by
  simp only [fromLastEscape, fromLastEscape_of_not_mem h, if_true]

theorem fromLastEscape_ne_nil {bytes : Bytes} (h : escByte ∈ bytes) :
    fromLastEscape bytes ≠ [] := by
  induction bytes with
  | nil => exact absurd h List.not_mem_nil
  | cons b bytes ih =>
    intro hnil
    rw [fromLastEscape] at hnil
    split at hnil
    next hrest =>
      rcases List.mem_cons.mp h with rfl | hmem
      · rw [if_pos rfl] at hnil
        exact List.cons_ne_nil _ _ hnil
      · exact ih hmem hrest
    next hrest => exact hrest hnil

/-- An escape further on hides those before it. -/
theorem fromLastEscape_append_of_mem (bytes : Bytes) {more : Bytes} (h : escByte ∈ more) :
    fromLastEscape (bytes ++ more) = fromLastEscape more := by
  induction bytes with
  | nil => rfl
  | cons b bytes ih =>
    rw [List.cons_append, fromLastEscape, ih]
    split
    next hnil => exact absurd hnil (fromLastEscape_ne_nil h)
    next => rfl

/-- Bytes without an escape are behind the last one, if there is one. -/
theorem fromLastEscape_append_of_not_mem {bytes more : Bytes} (hbytes : escByte ∈ bytes)
    (hmore : escByte ∉ more) :
    fromLastEscape (bytes ++ more) = fromLastEscape bytes ++ more := by
  induction bytes with
  | nil => exact absurd hbytes List.not_mem_nil
  | cons b bytes ih =>
    by_cases hmem : escByte ∈ bytes
    · obtain ⟨first, rest, hfound⟩ := List.exists_cons_of_ne_nil (fromLastEscape_ne_nil hmem)
      simp only [List.cons_append, fromLastEscape, ih hmem, hfound]
    · have hb : escByte = b := (List.mem_cons.mp hbytes).resolve_right hmem
      have hnot : escByte ∉ bytes ++ more := fun h =>
        (List.mem_append.mp h).elim hmem hmore
      rw [← hb, List.cons_append, fromLastEscape_esc hnot, fromLastEscape_esc hmem,
        List.cons_append]

theorem isFinished_append {body : Bytes} (h : isFinished body = true) (more : Bytes) :
    isFinished (body ++ more) = true := by
  cases body with
  | nil => cases h
  | cons kind body =>
    revert h
    simp only [List.cons_append, isFinished, List.any_append, List.contains_append]
    repeat' split
    · intro h
      rw [h, Bool.true_or]
    · intro h
      rw [h, Bool.true_or]
    · cases body with
      | nil => intro h; cases h
      | cons _ _ => exact fun _ => rfl
    · exact id

theorem unfinishedLength_append_of_mem (bytes : Bytes) {more : Bytes} (h : escByte ∈ more) :
    unfinishedLength (bytes ++ more) = unfinishedLength more := by
  rw [unfinishedLength, fromLastEscape_append_of_mem bytes h]
  rfl

theorem unfinishedLength_esc {body : Bytes} (hbody : escByte ∉ body)
    (hfinished : isFinished body = false) :
    unfinishedLength (escByte :: body) = (escByte :: body).length := by
  simp only [unfinishedLength, fromLastEscape_esc hbody, hfinished, Bool.false_eq_true, if_false]

/-! ## Settled bytes -/

/-- Bytes in which no escape sequence is unfinished. -/
def Settled (bytes : Bytes) : Prop := unfinishedLength bytes = 0

theorem settled_of_not_mem {bytes : Bytes} (h : escByte ∉ bytes) : Settled bytes := by
  rw [Settled, unfinishedLength, fromLastEscape_of_not_mem h]

theorem settled_esc {body : Bytes} (hbody : escByte ∉ body) (hfinished : isFinished body = true) :
    Settled (escByte :: body) := by
  simp only [Settled, unfinishedLength, fromLastEscape_esc hbody, hfinished, if_true]

/-- The last escape of settled bytes is finished, and more bytes without an escape leave it so. -/
theorem Settled.append {bytes more : Bytes} (hbytes : Settled bytes) (hmore : Settled more) :
    Settled (bytes ++ more) := by
  by_cases hin : escByte ∈ more
  · rw [Settled, unfinishedLength_append_of_mem bytes hin]
    exact hmore
  · by_cases hbefore : escByte ∈ bytes
    · obtain ⟨first, rest, hfound⟩ := List.exists_cons_of_ne_nil (fromLastEscape_ne_nil hbefore)
      have hfinished : isFinished rest = true := by
        simp only [Settled, unfinishedLength, hfound] at hbytes
        split at hbytes
        next h => exact h
        next => cases hbytes
      simp only [Settled, unfinishedLength, fromLastEscape_append_of_not_mem hbefore hin, hfound,
        List.cons_append, isFinished_append hfinished, if_true]
    · exact settled_of_not_mem fun h => (List.mem_append.mp h).elim hbefore hin

/-! ## The bytes of sequences -/

theorem esc_mem_of_mem_encode {text : List Char} (h : escByte ∈ encode text) : esc ∈ text :=
  Utf8.mem_of_mem_encode (by decide) h

theorem encode_esc (text : List Char) : encode (esc :: text) = escByte :: encode text := rfl

theorem encode_ascii {c : Char} (h : c.toNat < 0x80) : encode [c] = [UInt8.ofNat c.toNat] := by
  rw [Utf8.encode_cons, Utf8.encodeChar_of_ascii h]
  rfl

theorem isIntermediate_iff (b : UInt8) :
    isIntermediate b = true ↔ 0x20 ≤ b.toNat ∧ b.toNat ≤ 0x3F := by
  simp only [isIntermediate, Bool.and_eq_true, decide_eq_true_eq, UInt8.le_iff_toNat_le]
  rfl

theorem toNat_of_isParameter {c : Char} (h : isParameter c = true) :
    0x30 ≤ c.toNat ∧ c.toNat ≤ 0x3F := by
  simp only [isParameter, Bool.or_eq_true, Bool.and_eq_true, decide_eq_true_eq, beq_iff_eq,
    Char.le_def, UInt32.le_iff_toNat_le] at h
  rcases h with (⟨h0, h9⟩ | rfl) | rfl
  · exact ⟨h0, Nat.le_trans h9 (by decide)⟩
  · decide
  · decide

theorem toNat_of_isLetter {c : Char} (h : isLetter c = true) : 0x40 < c.toNat ∧ c.toNat < 0x80 := by
  simp only [isLetter, Bool.or_eq_true, Bool.and_eq_true, decide_eq_true_eq, Char.le_def,
    UInt32.le_iff_toNat_le] at h
  rcases h with ⟨hlow, hhigh⟩ | ⟨hlow, hhigh⟩
  · exact ⟨Nat.lt_of_lt_of_le (by decide) hlow, Nat.lt_of_le_of_lt hhigh (by decide)⟩
  · exact ⟨Nat.lt_of_lt_of_le (by decide) hlow, Nat.lt_of_le_of_lt hhigh (by decide)⟩

theorem toNat_of_isCharset {c : Char} (h : isCharset c = true) : c.toNat < 0x80 := by
  simp only [isCharset, Bool.or_eq_true, Bool.and_eq_true, decide_eq_true_eq, Char.le_def,
    UInt32.le_iff_toNat_le] at h
  rcases h with ⟨-, hhigh⟩ | ⟨-, hhigh⟩
  · exact Nat.lt_of_le_of_lt hhigh (by decide)
  · exact Nat.lt_of_le_of_lt hhigh (by decide)

theorem toNat_of_isFunction {c : Char} (h : isFunction c = true) : c.toNat < 0x80 := by
  have hall : ("=>MNOP78".toList.all fun c => decide (c.toNat < 0x80)) = true := by decide
  exact of_decide_eq_true (List.all_eq_true.mp hall c (List.contains_iff_mem.mp h))

/-- The parameters of a control sequence are passed over as intermediate bytes. -/
theorem isIntermediate_of_mem {parameters : List Char}
    (h : ∀ c ∈ parameters, isParameter c = true) {b : UInt8} (hb : b ∈ encode parameters) :
    isIntermediate b = true := by
  obtain ⟨c, hc, hb⟩ := List.mem_flatMap.mp hb
  obtain ⟨hlow, hhigh⟩ := toNat_of_isParameter (h c hc)
  rw [Utf8.encodeChar_of_ascii (by omega), List.mem_singleton] at hb
  rw [hb, isIntermediate_iff, Utf8.toNat_ofNat_of_lt (by omega)]
  omega

/-- The byte of the letter that ends a control sequence. -/
theorem encode_final {final : Char} (h : isLetter final = true) :
    ∃ b, encode [final] = [b] ∧ isIntermediate b = false ∧ b ≠ escByte := by
  obtain ⟨hlow, hhigh⟩ := toNat_of_isLetter h
  refine ⟨_, encode_ascii hhigh, ?_, ?_⟩
  · rw [← Bool.not_eq_true, isIntermediate_iff, Utf8.toNat_ofNat_of_lt (by omega)]
    omega
  · intro heq
    have hnat := congrArg UInt8.toNat heq
    rw [Utf8.toNat_ofNat_of_lt (by omega)] at hnat
    have hesc : escByte.toNat = 27 := rfl
    omega

theorem esc_not_mem_body {body : List Char} (h : ∀ c ∈ body, c ≠ bell ∧ c ≠ esc) :
    escByte ∉ encode body := fun hmem =>
  (h esc (esc_mem_of_mem_encode hmem)).2 rfl

theorem bell_not_mem_body {body : List Char} (h : ∀ c ∈ body, c ≠ bell ∧ c ≠ esc) :
    (0x07 : UInt8) ∉ encode body := fun hmem =>
  (h bell (Utf8.mem_of_mem_encode (by decide) hmem)).1 rfl

theorem encode_control (parameters : List Char) {final : Char} {b : UInt8}
    (h : encode [final] = [b]) :
    encode ('[' :: parameters ++ [final]) = 0x5B :: (encode parameters ++ [b]) := by
  rw [List.cons_append, Utf8.encode_cons, Utf8.encode_append, h]
  rfl

theorem encode_command (body more : List Char) :
    encode (']' :: body ++ more) = 0x5D :: (encode body ++ encode more) := by
  rw [List.cons_append, Utf8.encode_cons, Utf8.encode_append]
  rfl

theorem encode_charset (opening : Char) {name : Char} (h : isCharset name = true) :
    encode [opening, name] = encode [opening] ++ [UInt8.ofNat name.toNat] := by
  rw [← encode_ascii (toNat_of_isCharset h), ← Utf8.encode_append, List.singleton_append]

/-- The last escape of a sequence is finished by what the grammar asks for. -/
theorem settled_sequence (s : Sequence) : Settled (encode s.text) := by
  rw [Sequence.text, encode_esc]
  cases s with
  | control parameters final hparameters hfinal =>
    obtain ⟨b, hb, hstop, hne⟩ := encode_final hfinal
    rw [Sequence.body, encode_control parameters hb]
    refine settled_esc ?_ ?_
    · intro hmem
      rcases List.mem_cons.mp hmem with hcontra | hmem
      · exact absurd hcontra (by decide)
      · rcases List.mem_append.mp hmem with hmem | hmem
        · exact absurd (isIntermediate_of_mem hparameters hmem) (by decide)
        · exact hne (List.mem_singleton.mp hmem).symm
    · simp only [isFinished, if_true, List.any_append, List.any_cons, hstop, Bool.not_false,
        Bool.true_or, Bool.or_true]
  | command body terminator hbody =>
    have hesc := esc_not_mem_body hbody
    rw [Sequence.body, Utf8.encode_append]
    cases terminator with
    | bell =>
      refine settled_esc ?_ ?_
      · intro hmem
        rcases List.mem_append.mp hmem with hmem | hmem
        · exact (List.mem_cons.mp hmem).elim (by decide) hesc
        · exact absurd hmem (by decide)
      · show ((encode body ++ [0x07]).contains 0x07) = true
        rw [List.contains_append]
        exact Bool.or_true _
    | string =>
      show unfinishedLength ((escByte :: encode (']' :: body)) ++ [escByte, 0x5C]) = 0
      rw [unfinishedLength_append_of_mem _ (List.mem_cons_self ..)]
      rfl
  | charset opening name hopening hname =>
    have hesc : escByte ∉ encode [name] := by
      intro hmem
      rw [← List.mem_singleton.mp (esc_mem_of_mem_encode hmem)] at hname
      exact absurd hname (by decide)
    rw [encode_ascii (toNat_of_isCharset hname)] at hesc
    rw [Sequence.body, encode_charset opening hname]
    rcases hopening with rfl | rfl
    · exact settled_esc (List.not_mem_cons_of_ne_of_not_mem (by decide) hesc) rfl
    · exact settled_esc (List.not_mem_cons_of_ne_of_not_mem (by decide) hesc) rfl
  | function name hname =>
    have hall : ("=>MNOP78".toList.all fun c =>
        decide (unfinishedLength (escByte :: encode [c]) = 0)) = true := by decide
    have hlength : unfinishedLength (escByte :: encode [name]) = 0 :=
      of_decide_eq_true (List.all_eq_true.mp hall name (List.contains_iff_mem.mp hname))
    exact hlength

theorem settled_render (items : List Item) : Settled (encode (render items)) := by
  induction items with
  | nil => rfl
  | cons item items ih =>
    rw [render_cons, Utf8.encode_append]
    refine Settled.append ?_ ih
    cases item with
    | plain c h =>
      refine settled_of_not_mem fun hmem => ?_
      exact h (List.mem_singleton.mp (esc_mem_of_mem_encode hmem)).symm
    | sequence s => exact settled_sequence s

/-! ## Cuts -/

/-- Bytes that do not finish what an escape before them begins. -/
def Open (body : Bytes) : Prop := escByte ∉ body ∧ isFinished body = false

theorem Open.unfinished {body : Bytes} (h : Open body) :
    unfinishedLength (escByte :: body) = (escByte :: body).length :=
  unfinishedLength_esc h.1 h.2

theorem open_nil : Open [] := ⟨List.not_mem_nil, rfl⟩

theorem open_control {body : Bytes} (h : ∀ b ∈ body, isIntermediate b = true) :
    Open (0x5B :: body) := by
  refine ⟨?_, ?_⟩
  · refine List.not_mem_cons_of_ne_of_not_mem (by decide) fun hmem => ?_
    exact absurd (h _ hmem) (by decide)
  · simp only [isFinished, if_true, List.any_eq_false, Bool.not_eq_true', Bool.not_eq_false]
    exact h

theorem open_command {body : Bytes} (hesc : escByte ∉ body) (hbell : (0x07 : UInt8) ∉ body) :
    Open (0x5D :: body) := by
  have hne : ((0x5D : UInt8) = 0x5B) = False := by decide
  refine ⟨List.not_mem_cons_of_ne_of_not_mem (by decide) hesc, ?_⟩
  simp only [isFinished, hne, if_false, if_true]
  exact Bool.eq_false_iff.mpr fun h => hbell (List.contains_iff_mem.mp h)

/-- What comes before the last of a list. -/
theorem prefix_of_append_eq {α : Type} {part missing whole : List α} {last : α}
    (h : part ++ missing = whole ++ [last]) (hmissing : missing ≠ []) : part <+: whole := by
  rcases List.prefix_concat_iff.mp ⟨missing, h⟩ with heq | hpart
  · rw [heq] at h
    exact absurd (List.append_right_eq_self.mp h) hmissing
  · exact hpart

/-- A sequence of which something is missing is open, unless it is a system command of whose string
terminator the backslash alone is missing. -/
theorem open_part {s : Sequence} {part missing : Bytes} (h : part ++ missing = encode s.body)
    (hmissing : missing ≠ []) :
    Open part ∨ ∃ body hbody, s = .command body .string hbody ∧
      part = encode (']' :: body) ++ [escByte] ∧ missing = [0x5C] := by
  rcases part with - | ⟨kind, part⟩
  · exact .inl open_nil
  cases s with
  | control parameters final hparameters hfinal =>
    obtain ⟨b, hb, -⟩ := encode_final hfinal
    rw [Sequence.body, encode_control parameters hb] at h
    obtain ⟨rfl, htail⟩ := List.cons_eq_cons.mp h
    exact .inl (open_control fun b hb =>
      isIntermediate_of_mem hparameters ((prefix_of_append_eq htail hmissing).subset hb))
  | command body terminator hbody =>
    have hopen (hfront : part <+: encode body) : Open (0x5D :: part) :=
      open_command (fun hmem => esc_not_mem_body hbody (hfront.subset hmem))
        fun hmem => bell_not_mem_body hbody (hfront.subset hmem)
    rw [Sequence.body, encode_command] at h
    obtain ⟨rfl, htail⟩ := List.cons_eq_cons.mp h
    cases terminator with
    | bell => exact .inl (hopen (prefix_of_append_eq htail hmissing))
    | string =>
      -- All but the backslash is the exception; anything shorter is a part of the body.
      have hsplit : part ++ missing = (encode body ++ [escByte]) ++ [0x5C] := by
        rw [List.append_assoc]
        exact htail
      rcases List.prefix_concat_iff.mp (prefix_of_append_eq hsplit hmissing) with heq | hfront
      · rw [heq] at hsplit
        exact .inr ⟨body, hbody, rfl, by rw [heq]; rfl, List.append_cancel_left hsplit⟩
      · exact .inl (hopen hfront)
  | charset opening name hopening hname =>
    rw [Sequence.body, encode_charset opening hname] at h
    refine .inl ?_
    rcases hopening with rfl | rfl
    · obtain ⟨rfl, htail⟩ := List.cons_eq_cons.mp h
      rw [List.prefix_nil.mp (prefix_of_append_eq htail hmissing)]
      exact ⟨by decide, rfl⟩
    · obtain ⟨rfl, htail⟩ := List.cons_eq_cons.mp h
      rw [List.prefix_nil.mp (prefix_of_append_eq htail hmissing)]
      exact ⟨by decide, rfl⟩
  | function name hname =>
    rw [Sequence.body, encode_ascii (toNat_of_isFunction hname)] at h
    obtain ⟨-, htail⟩ := List.cons_eq_cons.mp h
    exact absurd (List.append_eq_nil_iff.mp htail).2 hmissing

/-- Where a sequence is cut, except in its string terminator, the whole of it waits. -/
theorem tailStart_open (text : List Char) {body : Bytes} (h : Open body) :
    tailStart (encode text ++ escByte :: body) = (encode text).length := by
  rw [tailStart, unfinishedLength_append_of_mem _ (List.mem_cons_self ..), h.unfinished,
    List.length_append, Nat.add_sub_cancel, List.take_left, Utf8.cutCharacter_encode, Nat.sub_zero]

/-- Where a character is cut behind settled output, the whole of it waits, and nothing else. -/
theorem tailStart_cut {text : List Char} (hsettled : Settled (encode text)) {c : Char}
    (hc : c ≠ esc) {part missing : Bytes} (h : part ++ missing = String.utf8EncodeChar c)
    (hmissing : missing ≠ []) : tailStart (encode text ++ part) = (encode text).length := by
  have hpart : escByte ∉ part := by
    intro hmem
    have hin : escByte ∈ encode [c] := by
      rw [Utf8.encode_cons, ← h, Utf8.encode_nil, List.append_nil]
      exact List.mem_append_left _ hmem
    exact hc (List.mem_singleton.mp (esc_mem_of_mem_encode hin)).symm
  have hlength : unfinishedLength (encode text ++ part) = 0 :=
    hsettled.append (settled_of_not_mem hpart)
  rw [tailStart, hlength, Nat.sub_zero, List.take_length,
    Utf8.cutCharacter_encode_append text h hmissing, List.length_append, Nat.add_sub_cancel]

/-- Behind settled output that is not cut nothing waits. -/
theorem tailStart_settled {text : List Char} (hsettled : Settled (encode text)) :
    tailStart (encode text) = (encode text).length := by
  rw [tailStart, hsettled, Nat.sub_zero, List.take_length, Utf8.cutCharacter_encode, Nat.sub_zero]

end TerminalSession.Escape
