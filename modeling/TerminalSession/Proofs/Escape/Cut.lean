import TerminalSession.Proofs.Escape.Removal
import TerminalSession.Proofs.Escape.Unfinished
import TerminalSession.Proofs.Utf8.Pieces

/-!
# Cuts in output of any kind

`Proofs/Escape/Unfinished` says where the unfinished end of well-formed output begins. Output may be
anything: sequences that are broken off, letters where parameters should stand, bytes that are no
characters. This module says what holding back the unfinished end does then: the texts of what comes
before it and of what comes from it on, stripped apart, are the whole text stripped
(`strip_cut`).

The argument is one about texts. A text can be cut wherever nothing behind the cut completes a
sequence begun before it (`strip_append`), and what is begun and not complete has one of five shapes
(`Begun`). Behind the cut stands one of three things: nothing that waits, and then nothing before the
cut is begun either (`not_begun_of_settled`); an escape that waits, which completes nothing unless a
backslash follows it (`Begun.none_of_escape`); or a character beyond ASCII, which can only go on with
a system command (`Begun.none_of_foreign`).

Output that ends with an escape is left out. There the escape waits, and if a backslash comes next
the two may end a system command that was taken for finished.
-/

set_option autoImplicit false

namespace TerminalSession.Escape

open Utf8 (encode decode)

/-! ## Sequences begun -/

/-- What stands behind an escape at the end of a text when it begins a sequence and does not complete
it. -/
inductive Begun : List Char → Prop
  | escape : Begun []
  | control {parameters : List Char} (h : ∀ c ∈ parameters, isParameter c = true) :
      Begun ('[' :: parameters)
  | command {body : List Char} (h : ∀ c ∈ body, c ≠ bell ∧ c ≠ esc) : Begun (']' :: body)
  | terminator {body : List Char} (h : ∀ c ∈ body, c ≠ bell ∧ c ≠ esc) :
      Begun (']' :: body ++ [esc])
  | charset {opening : Char} (h : opening = '(' ∨ opening = ')') : Begun [opening]

/-- A sequence of which something is missing is begun. -/
theorem begun_of_part {s : Sequence} {part missing : List Char} (h : part ++ missing = s.body)
    (hmissing : missing ≠ []) : Begun part := by
  rcases part with - | ⟨kind, part⟩
  · exact .escape
  cases s with
  | control parameters final hparameters _ =>
    obtain ⟨rfl, htail⟩ := List.cons_eq_cons.mp h
    exact .control fun c hc => hparameters c ((prefix_of_append_eq htail hmissing).subset hc)
  | command body terminator hbody =>
    obtain ⟨rfl, htail⟩ := List.cons_eq_cons.mp h
    have hcommand (hfront : part <+: body) : Begun (']' :: part) :=
      .command fun c hc => hbody c (hfront.subset hc)
    cases terminator with
    | bell => exact hcommand (prefix_of_append_eq htail hmissing)
    | string =>
      have hsplit : part ++ missing = (body ++ [esc]) ++ ['\\'] := by
        rw [List.append_assoc]
        exact htail
      rcases List.prefix_concat_iff.mp (prefix_of_append_eq hsplit hmissing) with rfl | hfront
      · exact .terminator hbody
      · exact hcommand hfront
  | charset opening name hopening _ =>
    obtain ⟨rfl, htail⟩ := List.cons_eq_cons.mp h
    have hsplit : part ++ missing = [] ++ [name] := htail
    rw [List.prefix_nil.mp (prefix_of_append_eq hsplit hmissing)]
    exact .charset hopening
  | function name _ =>
    obtain ⟨-, htail⟩ := List.cons_eq_cons.mp h
    exact absurd (List.append_eq_nil_iff.mp htail).2 hmissing

/-- A sequence that is there stays there, whatever comes behind it. -/
theorem afterSequence?_append {text rest : List Char} (h : afterSequence? text = some rest)
    (more : List Char) : afterSequence? (text ++ more) = some (rest ++ more) := by
  obtain ⟨s, rfl⟩ := exists_sequence h
  rw [List.append_assoc, afterSequence?_body]

/-- Only what is begun can be completed. -/
theorem begun_of_completed {text more rest : List Char} (h : afterSequence? text = none)
    (hmore : afterSequence? (text ++ more) = some rest) : Begun text := by
  obtain ⟨s, hs⟩ := exists_sequence hmore
  have hnot (behind : List Char) : text ≠ s.body ++ behind := by
    rintro rfl
    rw [afterSequence?_body] at h
    cases h
  rcases List.append_eq_append_iff.mp hs with ⟨missing, hbody, -⟩ | ⟨behind, heq, -⟩
  · refine begun_of_part hbody.symm ?_
    rintro rfl
    refine hnot [] ?_
    rw [hbody, List.append_assoc]
    exact (List.append_nil _).symm
  · exact absurd heq (hnot behind)

/-- **A text may be cut where nothing behind the cut completes what is begun before it.** -/
theorem strip_append {text more : List Char}
    (h : ∀ t, esc :: t <:+ text → Begun t → afterSequence? (t ++ more) = none) :
    strip (text ++ more) = strip text ++ strip more := by
  fun_induction strip text with
  | case1 => rfl
  | case2 rest ih =>
    have hrest : afterEscape (rest ++ more) = afterEscape rest ++ more := by
      rw [afterEscape, afterEscape]
      cases hseq : afterSequence? rest with
      | some behind =>
        rw [afterSequence?_append hseq]
        rfl
      | none =>
        have hnone : afterSequence? (rest ++ more) = none := by
          refine Option.eq_none_iff_forall_ne_some.mpr fun behind hsome => ?_
          rw [h rest (List.suffix_refl _) (begun_of_completed hseq hsome)] at hsome
          cases hsome
        rw [hnone]
        rfl
    rw [List.cons_append, strip_esc, hrest]
    refine ih fun t ht => h t ?_
    exact (ht.trans (afterEscape_suffix rest)).trans (List.suffix_cons esc rest)
  | case3 c rest hc ih =>
    rw [List.cons_append, strip_cons_of_ne hc, ih fun t ht => h t (ht.trans (List.suffix_cons c rest))]
    rfl

/-- An escape in what is begun is at its end: that of a string terminator. -/
theorem Begun.suffix_of_mem {t : List Char} (h : Begun t) (hesc : esc ∈ t) : [esc] <:+ t := by
  cases h with
  | escape => exact absurd hesc List.not_mem_nil
  | control h => exact absurd (h esc ((List.mem_cons.mp hesc).resolve_left (by decide))) (by decide)
  | command h =>
    exact absurd rfl (h esc ((List.mem_cons.mp hesc).resolve_left (by decide))).2
  | terminator h => exact List.suffix_append _ _
  | charset h =>
    rw [← List.mem_singleton.mp hesc] at h
    exact absurd h (by decide)

/-! ## Characters that complete nothing -/

/-- An escape or a character beyond ASCII: in a sequence none stands but in the body of a system
command, and at its end. -/
def Foreign (c : Char) : Prop := c = esc ∨ 0x80 ≤ c.toNat

theorem Foreign.ne {c d : Char} (h : Foreign c) (hd : d.toNat < 0x80) (hesc : d ≠ esc) : c ≠ d := by
  rintro rfl
  exact h.elim hesc fun hle => absurd hd (Nat.not_lt.mpr hle)

/-- A kind of character below 0x80 that the escape is not of has no foreign ones. -/
theorem Foreign.eq_false {c : Char} (h : Foreign c) {kind : Char → Bool}
    (hkind : ∀ d, kind d = true → d.toNat < 0x80) (hesc : kind esc = false) : kind c = false := by
  refine Bool.eq_false_iff.mpr fun hc => ?_
  exact h.ne (hkind c hc) (fun heq => ne_true_of_eq_false hesc (heq ▸ hc)) rfl

theorem Foreign.isParameter {c : Char} (h : Foreign c) : isParameter c = false :=
  h.eq_false (fun _ hd => Nat.lt_of_le_of_lt (toNat_of_isParameter hd).2 (by decide)) (by decide)

theorem Foreign.isLetter {c : Char} (h : Foreign c) : isLetter c = false :=
  h.eq_false (fun _ hd => (toNat_of_isLetter hd).2) (by decide)

theorem Foreign.isCharset {c : Char} (h : Foreign c) : isCharset c = false :=
  h.eq_false (fun _ hd => toNat_of_isCharset hd) (by decide)

theorem Foreign.isFunction {c : Char} (h : Foreign c) : isFunction c = false :=
  h.eq_false (fun _ hd => toNat_of_isFunction hd) (by decide)

/-- No sequence begins with a foreign character. -/
theorem Foreign.afterSequence? {c : Char} (h : Foreign c) (more : List Char) :
    afterSequence? (c :: more) = none := by
  have hopening : (decide (c = '(') || decide (c = ')')) = false := by
    rw [decide_eq_false (h.ne (by decide) (by decide)), decide_eq_false (h.ne (by decide) (by decide))]
    rfl
  rw [Escape.afterSequence?, if_neg (h.ne (by decide) (by decide)),
    if_neg (h.ne (by decide) (by decide)), hopening, h.isFunction]
  rfl

/-- The body of a system command ends nothing. -/
theorem afterCommand_body {body : List Char} (hbody : ∀ c ∈ body, c ≠ bell ∧ c ≠ esc)
    (rest : List Char) : afterCommand (body ++ rest) = afterCommand rest := by
  rw [afterCommand, dropWhile_body hbody, afterCommand]

/-- Of an escape and another character only the string terminator ends a system command. -/
theorem afterCommand_esc {c : Char} (hc : c ≠ '\\') (rest : List Char) :
    afterCommand (esc :: c :: rest) = none := by
  have hstop : (esc :: c :: rest).dropWhile (fun d => d != bell && d != esc) = esc :: c :: rest :=
    List.dropWhile_cons_of_neg (by decide)
  rw [afterCommand, hstop]
  dsimp only
  rw [if_neg (by decide)]
  split
  next heq => exact absurd (List.cons_eq_cons.mp heq).1 hc
  next => rfl

/-- What is begun is not completed by what begins with a foreign character, unless it is the body of
a system command and goes on. -/
theorem Begun.none_of_foreign {t : List Char} (h : Begun t) {c : Char} (hc : Foreign c)
    {more : List Char}
    (hcommand : ∀ body, (∀ d ∈ body, d ≠ bell ∧ d ≠ esc) → t = ']' :: body →
      afterCommand (c :: more) = none) : afterSequence? (t ++ c :: more) = none := by
  have hbracket : ¬(']' = '[') := by decide
  cases h with
  | escape => exact hc.afterSequence? more
  | @control parameters h =>
    rw [List.cons_append, afterSequence?, if_pos rfl, afterControl,
      List.dropWhile_append_of_pos h, List.dropWhile_cons_of_neg (ne_true_of_eq_false hc.isParameter)]
    exact if_neg (ne_true_of_eq_false hc.isLetter)
  | @command body h =>
    rw [List.cons_append, afterSequence?, if_neg hbracket, if_pos rfl, afterCommand_body h]
    exact hcommand body h rfl
  | @terminator body h =>
    rw [List.cons_append, List.cons_append, List.append_assoc, afterSequence?, if_neg hbracket,
      if_pos rfl, afterCommand_body h]
    exact afterCommand_esc (hc.ne (by decide) (by decide)) more
  | charset h =>
    have hnone : afterCharset (c :: more) = none := if_neg (ne_true_of_eq_false hc.isCharset)
    rcases h with rfl | rfl
    · exact hnone
    · exact hnone

/-- Characters beyond ASCII go on with the body of a system command. -/
theorem ne_end_of_wide {c : Char} (h : 0x80 ≤ c.toNat) : c ≠ bell ∧ c ≠ esc := by
  constructor
  · rintro rfl
    exact absurd h (by decide)
  · rintro rfl
    exact absurd h (by decide)

/-- An escape completes nothing, behind whatever characters beyond ASCII, unless a backslash follows
it. -/
theorem Begun.none_of_escape {t : List Char} (h : Begun t) {wide : List Char}
    (hwide : ∀ c ∈ wide, 0x80 ≤ c.toNat) {kind : Char} (hkind : kind ≠ '\\') (more : List Char) :
    afterSequence? (t ++ (wide ++ esc :: kind :: more)) = none := by
  have hnone : afterCommand (wide ++ esc :: kind :: more) = none := by
    rw [afterCommand_body fun c hc => ne_end_of_wide (hwide c hc), afterCommand_esc hkind]
  cases wide with
  | nil => exact h.none_of_foreign (.inl rfl) fun _ _ _ => hnone
  | cons c wide => exact h.none_of_foreign (.inr (hwide c List.mem_cons_self)) fun _ _ _ => hnone

/-! ## What is begun in bytes -/

/-- The last of something in a list. -/
theorem exists_last {α : Type} [DecidableEq α] {a : α} {list : List α} (h : a ∈ list) :
    ∃ before behind, list = before ++ a :: behind ∧ a ∉ behind := by
  obtain ⟨behind, before, hreverse, hnot⟩ := List.eq_append_cons_of_mem (List.mem_reverse.mpr h)
  refine ⟨before.reverse, behind.reverse, ?_, fun hmem => hnot (List.mem_reverse.mp hmem)⟩
  rw [← List.reverse_reverse list, hreverse, List.reverse_append, List.reverse_cons,
    List.append_assoc]
  rfl

/-- There is one place behind the last of something. -/
theorem eq_of_suffix_last {α : Type} {a : α} {list t u : List α} (ht : a :: t <:+ list)
    (hu : a :: u <:+ list) (hnot : a ∉ t) (hnot' : a ∉ u) : t = u := by
  rcases List.suffix_or_suffix_of_suffix ht hu with hsuffix | hsuffix
  · rcases List.suffix_cons_iff.mp hsuffix with heq | hin
    · exact (List.cons_eq_cons.mp heq).2
    · exact absurd (hin.subset List.mem_cons_self) hnot'
  · rcases List.suffix_cons_iff.mp hsuffix with heq | hin
    · exact (List.cons_eq_cons.mp heq).2.symm
    · exact absurd (hin.subset List.mem_cons_self) hnot

/-- Output with an escape is settled if what follows the last one is finished. -/
theorem settled_append_esc_iff {before body : Bytes} (hbody : escByte ∉ body) :
    Settled (before ++ escByte :: body) ↔ isFinished body = true := by
  have hlength : unfinishedLength (before ++ escByte :: body) =
      if isFinished body then 0 else (escByte :: body).length := by
    rw [unfinishedLength_append_of_mem before List.mem_cons_self, unfinishedLength,
      fromLastEscape_esc hbody]
  rw [Settled, hlength]
  cases isFinished body with
  | true => exact iff_of_true rfl rfl
  | false => exact iff_of_false (Nat.succ_ne_zero _) Bool.false_ne_true

theorem esc_mem_decode_iff {bytes : Bytes} : esc ∈ decode bytes ↔ escByte ∈ bytes :=
  Utf8.mem_decode_iff (b := escByte) (by decide)

theorem bell_mem_decode_iff {bytes : Bytes} : bell ∈ decode bytes ↔ (0x07 : UInt8) ∈ bytes :=
  Utf8.mem_decode_iff (b := 0x07) (by decide)

/-- Bytes that finish what an escape before them begins are not the beginning of a sequence. -/
theorem not_begun_decode {body : Bytes} (hbody : escByte ∉ body) (h : isFinished body = true) :
    ¬Begun (decode body) := by
  intro hbegun
  refine ne_true_of_eq_false ?_ h
  generalize ht : decode body = t at hbegun
  cases hbegun with
  | escape =>
    rw [Utf8.eq_encode_of_ascii ht nofun]
    rfl
  | @control parameters hparameters =>
    have hascii : ∀ c ∈ '[' :: parameters, c.toNat < 0x80 :=
      List.forall_mem_cons.mpr ⟨by decide, fun c hc =>
        Nat.lt_of_le_of_lt (toNat_of_isParameter (hparameters c hc)).2 (by decide)⟩
    rw [Utf8.eq_encode_of_ascii ht hascii]
    exact (open_control fun b hb => isIntermediate_of_mem hparameters hb).2
  | @command text htext =>
    obtain ⟨behind, rfl, hbehind⟩ := Utf8.exists_cons_of_ascii ht (by decide)
    rw [← hbehind] at htext
    refine (open_command (fun hesc => ?_) fun hbell => ?_).2
    · exact (htext esc (esc_mem_decode_iff.mpr hesc)).2 rfl
    · exact (htext bell (bell_mem_decode_iff.mpr hbell)).1 rfl
  | @terminator text _ =>
    have hesc : esc ∈ decode body := by
      rw [ht]
      exact List.mem_append_right _ (List.mem_singleton_self esc)
    exact absurd (esc_mem_decode_iff.mp hesc) hbody
  | charset hopening =>
    rcases hopening with rfl | rfl
    · rw [Utf8.eq_encode_of_ascii ht (List.forall_mem_singleton.mpr (by decide))]
      rfl
    · rw [Utf8.eq_encode_of_ascii ht (List.forall_mem_singleton.mpr (by decide))]
      rfl

/-- **Where nothing is unfinished nothing is begun.** -/
theorem not_begun_of_settled {raw : Bytes} (h : Settled raw) {t : List Char}
    (ht : esc :: t <:+ decode raw) : ¬Begun t := by
  have hmem : escByte ∈ raw := esc_mem_decode_iff.mp (ht.subset List.mem_cons_self)
  obtain ⟨before, body, rfl, hbody⟩ := exists_last hmem
  have hfinished := (settled_append_esc_iff hbody).mp h
  have hsuffix : esc :: decode body <:+ decode (before ++ escByte :: body) := by
    rw [Utf8.decode_append_ascii before (by decide)]
    exact List.suffix_append _ _
  -- What stands behind the last escape of the text is the text of what stands behind its byte.
  have hlast {u : List Char} (hu : esc :: u <:+ decode (before ++ escByte :: body))
      (hnot : esc ∉ u) : ¬Begun u := by
    rw [eq_of_suffix_last hu hsuffix hnot fun hesc => hbody (esc_mem_decode_iff.mp hesc)]
    exact not_begun_decode hbody hfinished
  intro hbegun
  by_cases hesc : esc ∈ t
  · have hend : esc :: [] <:+ esc :: t := (hbegun.suffix_of_mem hesc).trans (List.suffix_cons esc t)
    exact hlast (hend.trans ht) List.not_mem_nil .escape
  · exact hlast ht hesc hbegun

/-! ## Cuts -/

/-- The three parts of a chunk of output: what is whole, a part of a character, and an escape
sequence, of which either may be missing. The last two wait. -/
structure Parts (raw whole part rest : Bytes) : Prop where
  bytes : raw = whole ++ (part ++ rest)
  cutOff : Utf8.CutOff whole part
  waits : rest = [] ∧ Settled raw ∨ ∃ body, rest = escByte :: body ∧ Open body

/-- `tailStart` is where the whole part ends. -/
theorem exists_parts (raw : Bytes) :
    ∃ whole part rest, Parts raw whole part rest ∧ tailStart raw = whole.length := by
  by_cases hsettled : Settled raw
  · obtain ⟨whole, part, hraw, hlength, hcut⟩ := Utf8.exists_cutOff raw
    refine ⟨whole, part, [], ⟨by rw [List.append_nil, hraw], hcut, .inl ⟨rfl, hsettled⟩⟩, ?_⟩
    rw [tailStart, hsettled, Nat.sub_zero, List.take_length, hlength, hraw, List.length_append,
      Nat.add_sub_cancel]
  · have hmem : escByte ∈ raw := Decidable.byContradiction fun h => hsettled (settled_of_not_mem h)
    obtain ⟨before, body, rfl, hbody⟩ := exists_last hmem
    have hopen : Open body := by
      rw [settled_append_esc_iff hbody, Bool.not_eq_true] at hsettled
      exact ⟨hbody, hsettled⟩
    obtain ⟨whole, part, rfl, hlength, hcut⟩ := Utf8.exists_cutOff before
    refine ⟨whole, part, escByte :: body, ⟨List.append_assoc .., hcut, .inr ⟨body, rfl, hopen⟩⟩, ?_⟩
    rw [tailStart, unfinishedLength_append_of_mem _ List.mem_cons_self, hopen.unfinished,
      List.length_append, Nat.add_sub_cancel, List.take_left, hlength, List.length_append,
      Nat.add_sub_cancel]

/-- **What waits and what does not are decoded apart.** -/
theorem decode_tailStart (raw next : Bytes) :
    decode (raw.take (tailStart raw)) ++ decode (raw.drop (tailStart raw) ++ next) =
      decode (raw ++ next) := by
  obtain ⟨whole, part, rest, ⟨rfl, hcut, -⟩, hstart⟩ := exists_parts raw
  rw [hstart, List.take_left, List.drop_left, List.append_assoc, List.append_assoc,
    List.append_assoc, hcut.decode_append]

/-- The kinds of escape sequence that can be open, once there is a kind at all. -/
theorem Open.kind_ne {kind : UInt8} {body : Bytes} (h : Open (kind :: body)) :
    kind < 0x80 ∧ Char.ofNat kind.toNat ≠ '\\' := by
  have hfinished := h.2
  rw [isFinished] at hfinished
  split at hfinished
  next hkind =>
    rw [hkind]
    decide
  next =>
    split at hfinished
    next hkind =>
      rw [hkind]
      decide
    next =>
      split at hfinished
      next hkind =>
        rw [Bool.or_eq_true, decide_eq_true_eq, decide_eq_true_eq] at hkind
        rcases hkind with rfl | rfl
        · decide
        · decide
      next => cases hfinished

/-- Nothing before an open sequence is completed by it. -/
theorem Begun.none_of_open {t : List Char} (h : Begun t) {whole part body : Bytes}
    (hcut : Utf8.CutOff whole part) (hopen : Open body) (hbody : body ≠ []) (next : Bytes) :
    afterSequence? (t ++ decode (part ++ escByte :: (body ++ next))) = none := by
  obtain ⟨kind, body, rfl⟩ := List.exists_cons_of_ne_nil hbody
  obtain ⟨hascii, hkind⟩ := hopen.kind_ne
  rw [Utf8.decode_append_ascii part (by decide), List.cons_append, Utf8.decode_ascii_cons hascii]
  exact h.none_of_escape (fun c hc => Utf8.le_of_mem_decode (fun b hb => hcut.le_of_mem hb) hc) hkind _

/-- Where nothing is unfinished but a character, nothing before that character is completed by it or
behind it. -/
theorem Begun.none_of_settled {t : List Char} (h : Begun t) {whole part : Bytes}
    (ht : esc :: t <:+ decode whole) (hcut : Utf8.CutOff whole part)
    (hsettled : Settled (whole ++ part)) (next : Bytes) :
    afterSequence? (t ++ decode (part ++ next)) = none := by
  cases part with
  | nil =>
    rw [List.append_nil] at hsettled
    exact absurd h (not_begun_of_settled hsettled ht)
  | cons first tail =>
    have hbeyond : ∀ c ∈ decode (first :: tail), 0x80 ≤ c.toNat := fun c hc =>
      Utf8.le_of_mem_decode (fun b hb => hcut.le_of_mem hb) hc
    obtain ⟨c, behind, hdecode, hwide⟩ :=
      Utf8.decode_cons_wide (hcut.le_of_mem List.mem_cons_self) (tail ++ next)
    rw [List.cons_append, hdecode]
    refine h.none_of_foreign (.inr hwide) fun body hbody heq => ?_
    -- A system command would still be begun behind the part of the character that is there.
    have hbegun : Begun (t ++ decode (first :: tail)) := by
      rw [heq]
      refine .command fun d hd => ?_
      rcases List.mem_append.mp hd with hd | hd
      · exact hbody d hd
      · exact ne_end_of_wide (hbeyond d hd)
    have hsuffix : esc :: (t ++ decode (first :: tail)) <:+ decode (whole ++ (first :: tail)) := by
      obtain ⟨front, hfront⟩ := ht
      have hwhole := hcut.decode_append []
      rw [List.append_nil] at hwhole
      exact ⟨front, by rw [hwhole, ← hfront, List.append_assoc, List.cons_append]⟩
    exact absurd hbegun (not_begun_of_settled hsettled hsuffix)

/-- **A cut never changes what is stripped.** -/
theorem strip_cut {raw : Bytes} (hlast : raw.getLast? ≠ some escByte) (next : Bytes) :
    strip (decode (raw.take (tailStart raw))) ++
        strip (decode (raw.drop (tailStart raw) ++ next)) =
      strip (decode (raw ++ next)) := by
  rw [← decode_tailStart raw next]
  obtain ⟨whole, part, rest, ⟨hraw, hcut, hwaits⟩, hstart⟩ := exists_parts raw
  rw [hstart, hraw, List.take_left, List.drop_left]
  refine (strip_append fun t ht hbegun => ?_).symm
  rcases hwaits with ⟨rfl, hsettled⟩ | ⟨body, rfl, hopen⟩
  · rw [List.append_nil] at hraw ⊢
    exact hbegun.none_of_settled ht hcut (hraw ▸ hsettled) next
  · have hbody : body ≠ [] := by
      rintro rfl
      refine hlast ?_
      rw [hraw, ← List.append_assoc]
      exact List.getLast?_concat
    rw [List.append_assoc]
    exact hbegun.none_of_open hcut hopen hbody next

/-- A system command breaks off inside a character, and the sequence behind it is cut. -/
def brokenTitle : Bytes := [0x1B, 0x5D, 0x74, 0xE2, 0x1B, 0x5B, 0x33]

theorem strip_cut_brokenTitle :
    brokenTitle.getLast? ≠ some escByte ∧
      tailStart brokenTitle = 3 ∧
      strip (decode (brokenTitle.take 3)) ++ strip (decode (brokenTitle.drop 3 ++ [0x6D, 0x21])) =
        [']', 't', Utf8.replacement, '!'] := by
  have hlast : brokenTitle.getLast? ≠ some escByte := by decide
  have hstart : tailStart brokenTitle = 3 := by decide +kernel
  have hcut := strip_cut hlast [0x6D, 0x21]
  rw [hstart] at hcut
  refine ⟨hlast, hstart, ?_⟩
  rw [hcut]
  decide +kernel

end TerminalSession.Escape
