import TerminalSession.Proofs.Recorder.Held
import TerminalSession.Proofs.Recorder.Repeats
import TerminalSession.Proofs.Text.Visible

/-!
# Output that ends inside an escape sequence

An escape sequence that the end of the output cuts off is meant to be left out. A recorder tells it
by the first byte of what it holds back. That byte is the escape only if no character is cut off
before the sequence; behind a cut character the recorder finds that character, and takes the rest for
text. Stripping finds no sequence there either, since none is finished, and takes out its escape
alone.

So what is cut off is left out exactly where no character is cut before it, or where it is a lone
escape; else the sequence stands in the transcript, without its escape (`recorded_unterminated_iff`).
-/

set_option autoImplicit false

namespace TerminalSession

namespace Escape

open Utf8 (decode)

/-- Bytes that begin an escape sequence and do not end it. -/
inductive Unterminated : Bytes → Prop
  | escape : Unterminated [escByte]
  | control {body : Bytes} (h : ∀ b ∈ body, isIntermediate b = true) :
      Unterminated (escByte :: 0x5B :: body)
  | command {body : Bytes} (hesc : escByte ∉ body) (hbell : (0x07 : UInt8) ∉ body) :
      Unterminated (escByte :: 0x5D :: body)
  | charset {opening : UInt8} (h : opening = 0x28 ∨ opening = 0x29) :
      Unterminated [escByte, opening]

theorem Unterminated.open {unended : Bytes} (h : Unterminated unended) :
    ∃ body, unended = escByte :: body ∧ Open body := by
  cases h with
  | escape => exact ⟨[], rfl, open_nil⟩
  | control h => exact ⟨_, rfl, open_control h⟩
  | command hesc hbell => exact ⟨_, rfl, open_command hesc hbell⟩
  | charset h =>
    rcases h with rfl | rfl
    · exact ⟨_, rfl, by decide, rfl⟩
    · exact ⟨_, rfl, by decide, rfl⟩

/-- Behind the bracket of a control sequence that is not finished there is no letter. -/
theorem afterControl_decode {body : Bytes} (h : ∀ b ∈ body, isIntermediate b = true) :
    afterControl (decode body) = none := by
  rw [afterControl]
  split
  next c rest hrest =>
    have hmem : c ∈ decode body := by
      apply (List.dropWhile_suffix isParameter).subset
      rw [hrest]
      exact List.mem_cons_self
    rw [if_neg]
    intro hletter
    obtain ⟨hlow, hascii⟩ := toNat_of_isLetter hletter
    have hbyte := (isIntermediate_iff _).mp
      (h _ (Utf8.mem_of_mem_decodeFrom Utf8.sound_ready hmem hascii))
    rw [Utf8.toNat_ofNat_of_lt (by omega)] at hbyte
    omega
  next => rfl

/-- Bytes without bell and escape are decoded to a text without them. -/
theorem ne_of_mem_decode {body : Bytes} (hesc : escByte ∉ body) (hbell : (0x07 : UInt8) ∉ body) :
    ∀ c ∈ decode body, c ≠ bell ∧ c ≠ esc := by
  intro c hc
  refine ⟨?_, ?_⟩
  · rintro rfl
    exact hbell (bell_mem_decode_iff.mp hc)
  · rintro rfl
    exact hesc (esc_mem_decode_iff.mp hc)

/-- What is not finished is no sequence. -/
theorem Unterminated.afterSequence? {body : Bytes} (h : Unterminated (escByte :: body)) :
    afterSequence? (decode body) = none := by
  cases h with
  | escape => rfl
  | control h =>
    rw [Utf8.decode_ascii_cons (by decide)]
    exact afterControl_decode h
  | command hesc hbell =>
    rw [Utf8.decode_ascii_cons (by decide)]
    exact afterCommand_unended (ne_of_mem_decode hesc hbell)
  | charset h =>
    rcases h with rfl | rfl
    · rfl
    · rfl

/-- What follows the escape, if anything does, begins with a character that can be seen. -/
theorem Unterminated.kind {body : Bytes} (h : Unterminated (escByte :: body)) :
    body = [] ∨ ∃ kind rest, body = kind :: rest ∧ kind < 0x80 ∧
      Text.isBlank (Char.ofNat kind.toNat) = false := by
  cases h with
  | escape => exact .inl rfl
  | control => exact .inr ⟨_, _, rfl, by decide, by decide⟩
  | command => exact .inr ⟨_, _, rfl, by decide, by decide⟩
  | charset h =>
    rcases h with rfl | rfl
    · exact .inr ⟨_, _, rfl, by decide, by decide⟩
    · exact .inr ⟨_, _, rfl, by decide, by decide⟩

/-- Text in front of which nothing is begun stays as it is. -/
theorem strip_append_of_not_mem {text : List Char} (h : esc ∉ text) (more : List Char) :
    strip (text ++ more) = text ++ strip more := by
  induction text with
  | nil => rfl
  | cons c text ih =>
    obtain ⟨hc, htext⟩ := List.ne_and_not_mem_of_not_mem_cons h
    rw [List.cons_append, strip_cons_of_ne hc.symm, ih htext, List.cons_append]

end Escape

namespace Recorder

open Escape (escByte Open Unterminated Waiting strip)
open Utf8 (Cut cutCharacter decode startsCut)

/-! ## What is recorded of output that ends -/

/-- The record of a text that is shown first of all; none if it is empty. -/
def shownFirst (text : List Char) : List Record := if text.isEmpty then [] else [.shown text]

/-- A text that is shown first of all repeats nothing. -/
theorem collapse_first (text : List Char) (coming : List Arrival) :
    collapse [] 0 (.shown text :: coming) = shownFirst text ++ collapse text 0 coming := by
  rw [collapse, shownFirst]
  cases text with
  | nil => rfl
  | cons c text =>
    have hother : ¬((Frame.isFrame (c :: text) && decide (c :: text = [])) = true) := by
      rw [decide_eq_false (List.cons_ne_nil c text), Bool.and_false]
      exact Bool.false_ne_true
    rw [if_neg hother]
    rfl

/-- What a tail comes to is recorded as it is. -/
theorem collapse_lastArrivals (last : List Char) {held : Bytes} (h : Waiting held) :
    collapse last 0 (lastArrivals held) =
      if startsCut held then [.shown (clean held)] else [] := by
  rw [lastArrivals_eq h]
  cases hstarts : startsCut held with
  | false => rfl
  | true =>
    obtain ⟨hne, hframe⟩ := not_frame_of_startsCut h hstarts
    rw [if_pos rfl, if_pos rfl, collapse, if_neg (mt List.isEmpty_iff.mp hne), hframe,
      Bool.false_and, if_neg Bool.false_ne_true]
    rfl

/-- What is recorded of one chunk of output is what is not held back, and behind it what is held back
if that starts with a cut character. -/
theorem recorded_output (cfg : Config) (now capacity : Nat) {raw whole held : Bytes}
    (hsplit : splitTail raw = (whole, held)) :
    recorded cfg now capacity [.call (.output raw)] =
      shownFirst (clean whole) ++ if startsCut held then [.shown (clean held)] else [] := by
  have hwaiting : Waiting held := by
    have h := waiting_splitTail raw
    rwa [hsplit] at h
  have hrunning : .call Call.stop ∉ [Stage.Step.call (Call.output raw)] := by
    intro hmem
    cases List.mem_singleton.mp hmem
  have harrivals : arrivals [] (feeds [.call (.output raw)]) =
      .shown (clean whole) :: lastArrivals held := by
    show .shown (clean (splitTail raw).1) :: lastArrivals (splitTail raw).2 = _
    rw [hsplit]
  rw [recorded, handedOver_to_end cfg now capacity hrunning, transcript, harrivals, collapse_first,
    collapse_lastArrivals _ hwaiting]

/-- Behind output without escapes, the character that is cut off and an open sequence wait, if they
are not too long. -/
theorem splitTail_of_cutOff {whole part rest : Bytes} (hesc : escByte ∉ whole ++ part)
    (hcut : Utf8.CutOff whole part) (hlength : cutCharacter (whole ++ part) = part.length)
    (hrest : rest = [] ∨ ∃ body, rest = escByte :: body ∧ Open body)
    (hfits : part.length + rest.length ≤ holdLimit) :
    splitTail (whole ++ (part ++ rest)) = (whole, part ++ rest) := by
  have hparts : Escape.Parts (whole ++ (part ++ rest)) whole part rest := by
    refine ⟨rfl, hcut, ?_⟩
    rcases hrest with rfl | hopen
    · rw [List.append_nil]
      exact .inl ⟨rfl, Escape.settled_of_not_mem hesc⟩
    · exact .inr hopen
  have hstart : Escape.tailStart (whole ++ (part ++ rest)) = whole.length := by
    rw [hparts.tailStart_eq, hlength, List.length_append, Nat.add_sub_cancel]
  have htail : (whole ++ (part ++ rest)).length - whole.length ≤ holdLimit := by
    rw [List.length_append, Nat.add_sub_cancel_left, List.length_append]
    exact hfits
  rw [splitTail, hstart, if_pos htail, List.take_left, List.drop_left]

/-! ## The sequence at the end -/

theorem strip_decode {bytes : Bytes} (h : escByte ∉ bytes) : strip (decode bytes) = decode bytes := by
  exact Escape.strip_of_esc_not_mem (mt Escape.esc_mem_decode_iff.mp h)

/-- What stands behind an escape is no part of a character. -/
theorem decode_append_body (part : Bytes) {body : Bytes} (h : Unterminated (escByte :: body)) :
    decode (part ++ body) = decode part ++ decode body := by
  rcases h.kind with rfl | ⟨kind, rest, rfl, hascii, -⟩
  · rw [List.append_nil]
    exact (List.append_nil _).symm
  · rw [Utf8.decode_append_ascii part hascii, Utf8.decode_ascii_cons hascii]

/-- Behind a cut character, all but its escape is kept of a sequence that is not finished. -/
theorem clean_unterminated {part body : Bytes} (hpart : escByte ∉ part)
    (h : Unterminated (escByte :: body)) :
    clean (part ++ escByte :: body) = clean (part ++ body) := by
  obtain ⟨_, heq, hopen⟩ := h.open
  obtain rfl := (List.cons.inj heq).2
  have hbehind : strip (Escape.esc :: decode body) = strip (decode body) := by
    rw [Escape.strip_esc, Escape.afterEscape, h.afterSequence?, Option.getD_none]
  have hstrip : strip (decode (part ++ escByte :: body)) = strip (decode (part ++ body)) := by
    rw [Utf8.decode_append_ascii part (by decide), decode_append_body part h]
    rw [Escape.strip_append_of_not_mem (mt Escape.esc_mem_decode_iff.mp hpart),
      Escape.strip_append_of_not_mem (mt Escape.esc_mem_decode_iff.mp hpart)]
    exact congrArg (decode part ++ ·) hbehind
  rw [clean, clean, Text.forTranscript, Text.forTranscript, hstrip]

/-- What is kept of the sequence is seen, unless it was a lone escape. -/
theorem clean_append_body_ne {part body : Bytes} (hpart : escByte ∉ part)
    (h : Unterminated (escByte :: body)) (hne : body ≠ []) :
    clean (part ++ body) ≠ clean part := by
  obtain ⟨_, heq, hopen⟩ := h.open
  obtain rfl := (List.cons.inj heq).2
  rcases h.kind with hnil | ⟨kind, rest, hbody, hascii, hseen⟩
  · exact absurd hnil hne
  intro hsame
  have hvisible := congrArg Text.visible hsame
  have hall : escByte ∉ part ++ body := by
    intro hmem
    exact (List.mem_append.mp hmem).elim hpart hopen.1
  rw [clean, clean, Text.visible_forTranscript, Text.visible_forTranscript, strip_decode hall,
    strip_decode hpart, decode_append_body part h, Text.visible_append, List.append_right_eq_self,
    hbody, Utf8.decode_ascii_cons hascii, Text.visible_cons_of_not_blank hseen] at hvisible
  cases hvisible

/-- **A sequence that the end cuts off is left out unless a character is cut off before it.** For
output without escapes, behind which there is a sequence that is not finished and fits into what is
held back,

- the records are those of the output without the sequence exactly if no character is cut off before
  the sequence, or if it is a lone escape;
- if a character is cut off, the sequence is recorded behind it, without its escape. -/
theorem recorded_unterminated_iff (cfg : Config) (now capacity : Nat) {s unended : Bytes}
    (hesc : escByte ∉ s) (h : Unterminated unended)
    (hfits : cutCharacter s + unended.length ≤ holdLimit) :
    (recorded cfg now capacity [.call (.output (s ++ unended))] =
          recorded cfg now capacity [.call (.output s)] ↔
        cutCharacter s = 0 ∨ unended = [escByte]) ∧
      (cutCharacter s ≠ 0 → ∃ whole part, s = whole ++ part ∧ part.length = cutCharacter s ∧
        recorded cfg now capacity [.call (.output s)] =
          shownFirst (clean whole) ++ [.shown (clean part)] ∧
        recorded cfg now capacity [.call (.output (s ++ unended))] =
          shownFirst (clean whole) ++ [.shown (clean (part ++ unended.tail))]) := by
  obtain ⟨body, rfl, hopen⟩ := h.open
  obtain ⟨whole, part, rfl, hlength, hcut⟩ := Utf8.exists_cutOff s
  have hpart : escByte ∉ part := fun hmem => hesc (List.mem_append_right _ hmem)
  rw [hlength] at hfits ⊢
  have halone := recorded_output cfg now capacity
    (splitTail_of_cutOff hesc hcut hlength (.inl rfl) (Nat.le_trans (Nat.le_add_right _ _) hfits))
  have hboth := recorded_output cfg now capacity
    (splitTail_of_cutOff hesc hcut hlength (.inr ⟨body, rfl, hopen⟩) hfits)
  rw [List.append_nil] at halone
  rw [List.append_assoc, halone, hboth]
  by_cases hnone : part = []
  · -- The tail is the sequence alone, or nothing.
    subst hnone
    rw [List.nil_append, Escape.startsCut_esc]
    exact ⟨⟨fun _ => .inl rfl, fun _ => rfl⟩, fun hcut => absurd rfl hcut⟩
  · have hfirst := hcut.cut hlength hnone
    rw [Escape.startsCut_append_esc hfirst, hfirst.startsCut_self, if_pos rfl, if_pos rfl,
      clean_unterminated hpart h]
    refine ⟨?_, fun _ => ⟨whole, part, rfl, rfl, rfl, rfl⟩⟩
    rw [List.append_cancel_left_eq, List.cons.injEq, Record.shown.injEq]
    constructor
    · rintro ⟨hsame, -⟩
      by_cases hbody : body = []
      · rw [hbody]
        exact .inr rfl
      · exact absurd hsame (clean_append_body_ne hpart h hbody)
    · rintro (hzero | hlone)
      · exact absurd (List.eq_nil_of_length_eq_zero hzero) hnone
      · rw [(List.cons.inj hlone).2, List.append_nil]
        exact ⟨rfl, rfl⟩

/-- Behind a line, a control sequence that is not finished is left out. -/
theorem recorded_unterminated_behind_line :
    escByte ∉ [0x61, 0x0A] ∧ Unterminated [escByte, 0x5B, 0x33] ∧
      cutCharacter [0x61, 0x0A] + [escByte, 0x5B, 0x33].length ≤ holdLimit ∧
      recorded smallBuffer 0 1 [.call (.output ([0x61, 0x0A] ++ [escByte, 0x5B, 0x33]))] =
        recorded smallBuffer 0 1 [.call (.output [0x61, 0x0A])] := by
  have hesc : escByte ∉ [0x61, 0x0A] := by decide
  have hunended : Unterminated [escByte, 0x5B, 0x33] :=
    .control (List.forall_mem_singleton.mpr rfl)
  have hfits : cutCharacter [0x61, 0x0A] + [escByte, 0x5B, 0x33].length ≤ holdLimit := by decide
  have hsame := (recorded_unterminated_iff smallBuffer 0 1 hesc hunended hfits).1
  exact ⟨hesc, hunended, hfits, hsame.mpr (.inl (by decide))⟩

/-- Behind the first byte of a character it is not: its bracket and its digit are recorded. -/
theorem recorded_unterminated_behind_cut :
    escByte ∉ [0x61, 0xE2] ∧ Unterminated [escByte, 0x5B, 0x33] ∧
      cutCharacter [0x61, 0xE2] + [escByte, 0x5B, 0x33].length ≤ holdLimit ∧
      recorded smallBuffer 0 1 [.call (.output [0x61, 0xE2])] =
        [.shown ['a'], .shown [Utf8.replacement]] ∧
      recorded smallBuffer 0 1 [.call (.output ([0x61, 0xE2] ++ [escByte, 0x5B, 0x33]))] =
        [.shown ['a'], .shown [Utf8.replacement, '[', '3']] ∧
      recorded smallBuffer 0 1 [.call (.output ([0x61, 0xE2] ++ [escByte, 0x5B, 0x33]))] ≠
        recorded smallBuffer 0 1 [.call (.output [0x61, 0xE2])] := by
  have hunended : Unterminated [escByte, 0x5B, 0x33] :=
    .control (List.forall_mem_singleton.mpr rfl)
  exact ⟨by decide, hunended, by decide, by decide +kernel, by decide +kernel, by decide +kernel⟩

end Recorder

end TerminalSession
