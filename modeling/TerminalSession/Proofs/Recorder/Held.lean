import TerminalSession.Proofs.Escape.Cut
import TerminalSession.Proofs.Recorder.Arrivals

/-!
# What a recorder holds back

The tail that a chunk of output leaves to the next one has one of four shapes (`Waiting`): nothing,
an escape sequence that is not finished, a character that is cut off, or both of them, the character
first. So its first byte tells what it begins with, and a tail that begins with a character can be
told from the others by that byte and those that go on with it (`startsCut`).

A tail that begins with a cut character is read as a replacement character and more
(`clean_of_startsCut`), whatever stands behind. That is no frame of an animation, so what such a
tail comes to is never taken for a repeat.
-/

set_option autoImplicit false

namespace TerminalSession

namespace Utf8

/-- Bytes that begin a character and lack the rest of it, as the first of them tells. -/
inductive Cut : Bytes → Prop
  | mk {first : UInt8} {tail : Bytes} (hfirst : isContinuation first = false)
      (htail : ∀ b ∈ tail, isContinuation b = true)
      (hsize : tail.length + 1 < announcedSize first) : Cut (first :: tail)

/-- Whether bytes start with a cut character: fewer go on with it than the first announces. -/
def startsCut : Bytes → Bool
  | [] => false
  | first :: rest => (rest.takeWhile isContinuation).length + 1 < announcedSize first

theorem Cut.startsCut_append {part rest : Bytes} (h : Cut part)
    (hrest : ∀ b ∈ rest.head?, isContinuation b = false) : startsCut (part ++ rest) = true := by
  obtain @⟨first, tail, hfirst, htail, hsize⟩ := h
  have hnone : rest.takeWhile isContinuation = [] := by
    cases rest with
    | nil => rfl
    | cons b rest => exact List.takeWhile_cons_of_neg (ne_true_of_eq_false (hrest b rfl))
  have hgoes : (tail ++ rest).takeWhile isContinuation = tail := by
    rw [List.takeWhile_append_of_pos htail, hnone, List.append_nil]
  rw [List.cons_append, startsCut, hgoes]
  exact decide_eq_true hsize

theorem Cut.startsCut_self {part : Bytes} (h : Cut part) : startsCut part = true := by
  have hstarts : startsCut (part ++ []) = true := by
    apply h.startsCut_append
    intro b hb
    cases hb
  rwa [List.append_nil] at hstarts

theorem cutCharacter_le (bytes : Bytes) : cutCharacter bytes ≤ bytes.length := by
  obtain ⟨whole, part, rfl, hlength, -⟩ := exists_cutOff bytes
  rw [hlength, List.length_append]
  exact Nat.le_add_left _ _

/-- What is cut off as `cutCharacter` measures it is a cut character, if it is anything. -/
theorem CutOff.cut {whole part : Bytes} (h : CutOff whole part)
    (hlength : cutCharacter (whole ++ part) = part.length) (hpart : part ≠ []) : Cut part := by
  cases h with
  | nothing _ => exact absurd rfl hpart
  | @part tail first hfirst _ htail =>
    apply Cut.mk hfirst htail
    rw [cutCharacter_append_cons whole hfirst htail, List.length_cons] at hlength
    split at hlength
    next hsize => exact hsize
    next => exact absurd hlength (Nat.succ_ne_zero _).symm

/-- Inside a character, as many bytes as are still missing or fewer complete nothing. -/
theorem decodeFrom_inside_short {code more : Nat} {low high : UInt8} {bytes : Bytes}
    (h : bytes.length ≤ more) :
    ∃ rest, decodeFrom (.inside code more low high) bytes = replacement :: rest := by
  induction bytes generalizing code more low high with
  | nil => exact ⟨[], rfl⟩
  | cons b bytes ih =>
    rw [decodeFrom_cons]
    by_cases hb : (low ≤ b && b ≤ high) = true
    · -- The byte goes on with the character, of which one byte less is missing then.
      obtain ⟨fewer, rfl⟩ : ∃ fewer, more = fewer + 1 :=
        Nat.exists_eq_add_one_of_ne_zero (by rw [List.length_cons] at h; omega)
      simp only [step, hb, if_true]
      apply ih
      rw [List.length_cons] at h
      omega
    · rw [step_inside_afresh (Bool.eq_false_iff.mpr hb)]
      exact ⟨_, rfl⟩

/-- A cut character is read as a replacement, and perhaps as more than one. -/
theorem Cut.decode {part : Bytes} (h : Cut part) :
    ∃ rest, Utf8.decode part = replacement :: rest := by
  obtain @⟨first, tail, hfirst, htail, hsize⟩ := h
  rw [Utf8.decode, decodeFrom_cons, Utf8.step]
  rcases start_cases first with ⟨hlow, -⟩ | ⟨-, halone | ⟨code, more, low, high, hbegun⟩⟩
  · have hone : announcedSize first = 1 := by
      have hlt : first.toNat < 0x80 := hlow
      rw [announcedSize_eq, if_pos (by omega)]
    omega
  · rw [halone]
    exact ⟨_, rfl⟩
  · have hannounced := (start_inside (congrArg Prod.fst hbegun)).2
    rw [hbegun]
    apply decodeFrom_inside_short
    omega

end Utf8

namespace Escape

open Utf8 (Cut startsCut isContinuation)

/-- What waits at the end of output for what follows it. -/
inductive Waiting : Bytes → Prop
  | nothing : Waiting []
  | sequence {body : Bytes} (hopen : Open body) : Waiting (escByte :: body)
  | character {part : Bytes} (hcut : Cut part) : Waiting part
  | both {part body : Bytes} (hcut : Cut part) (hopen : Open body) :
      Waiting (part ++ escByte :: body)

theorem Parts.tailStart_eq {raw whole part rest : Bytes} (h : Parts raw whole part rest) :
    tailStart raw = (whole ++ part).length - Utf8.cutCharacter (whole ++ part) := by
  have hlength : raw.length - unfinishedLength raw = (whole ++ part).length := by
    rcases h.waits with ⟨rfl, hsettled⟩ | ⟨body, rfl, hopen⟩
    · rw [hsettled, Nat.sub_zero, h.bytes, List.append_nil]
    · rw [h.bytes, ← List.append_assoc, unfinishedLength_append_of_mem _ List.mem_cons_self,
        hopen.unfinished, List.length_append, Nat.add_sub_cancel]
  have htake : raw.take (whole ++ part).length = whole ++ part := by
    rw [h.bytes, ← List.append_assoc, List.take_left]
  rw [tailStart, hlength, htake]

/-- The part of a character in front of what waits is a character cut off. -/
theorem Parts.cut {raw whole part rest : Bytes} (h : Parts raw whole part rest)
    (hstart : tailStart raw = whole.length) (hpart : part ≠ []) : Cut part := by
  apply h.cutOff.cut _ hpart
  have htail := h.tailStart_eq
  have hlength := Utf8.cutCharacter_le (whole ++ part)
  rw [List.length_append] at htail hlength
  omega

/-- **What waits has one of the four shapes.** -/
theorem waiting_drop (raw : Bytes) : Waiting (raw.drop (tailStart raw)) := by
  obtain ⟨whole, part, rest, hparts, hstart⟩ := exists_parts raw
  have hdrop : raw.drop (tailStart raw) = part ++ rest := by
    rw [hstart, hparts.bytes, List.drop_left]
  rw [hdrop]
  by_cases hpart : part = []
  · rw [hpart, List.nil_append]
    rcases hparts.waits with ⟨rfl, -⟩ | ⟨body, rfl, hopen⟩
    · exact .nothing
    · exact .sequence hopen
  · have hcut := hparts.cut hstart hpart
    rcases hparts.waits with ⟨rfl, -⟩ | ⟨body, rfl, hopen⟩
    · rw [List.append_nil]
      exact .character hcut
    · exact .both hcut hopen

theorem startsCut_esc (body : Bytes) : startsCut (escByte :: body) = false := by
  have hone : Utf8.announcedSize escByte = 1 := by decide
  rw [startsCut, hone]
  apply decide_eq_false
  omega

theorem startsCut_append_esc {part : Bytes} (h : Cut part) (body : Bytes) :
    startsCut (part ++ escByte :: body) = true := by
  apply h.startsCut_append
  intro b hb
  cases hb
  decide

/-- What waits and does not start with a cut character is nothing, or starts with an escape. -/
theorem Waiting.cases_startsCut {held : Bytes} (h : Waiting held) :
    (startsCut held = false ∧ (held = [] ∨ ∃ body, held = escByte :: body)) ∨
      (startsCut held = true ∧ ∃ part rest, held = part ++ rest ∧ Cut part ∧
        (rest = [] ∨ ∃ body, rest = escByte :: body)) := by
  cases h with
  | nothing => exact .inl ⟨rfl, .inl rfl⟩
  | @sequence body _ => exact .inl ⟨startsCut_esc body, .inr ⟨body, rfl⟩⟩
  | character hcut =>
    exact .inr ⟨hcut.startsCut_self, held, [], (List.append_nil held).symm, hcut, .inl rfl⟩
  | @both part body hcut _ =>
    exact .inr ⟨startsCut_append_esc hcut body, part, escByte :: body, rfl, hcut, .inr ⟨body, rfl⟩⟩

end Escape

namespace Text

/-- Trimming the end leaves a character that is no blank, and what is before it. -/
theorem trimEnd_cons {c : Char} (h : isBlank c = false) (text : List Char) :
    ∃ rest, trimEnd (c :: text) = c :: rest := by
  rw [trimEnd, List.reverse_cons, List.dropWhile_append]
  split
  · rw [List.dropWhile_cons_of_neg (ne_true_of_eq_false h)]
    exact ⟨[], rfl⟩
  · rw [List.reverse_append]
    exact ⟨_, rfl⟩

/-- Cleaning keeps a character at the beginning, if it is neither a blank nor an escape. -/
theorem forTranscript_cons {c : Char} (hblank : isBlank c = false) (hesc : c ≠ Escape.esc)
    (text : List Char) : ∃ rest, forTranscript (c :: text) = c :: rest := by
  have hreturn : c ≠ '\r' := by
    rintro rfl
    exact absurd hblank (by decide)
  have hfeed : c ≠ '\n' := by
    rintro rfl
    exact absurd hblank (by decide)
  have hkept : (c :: Escape.strip text).filter (· ≠ '\r') =
      c :: (Escape.strip text).filter (· ≠ '\r') :=
    List.filter_cons_of_pos (decide_eq_true hreturn)
  rw [forTranscript, Escape.strip_cons_of_ne hesc, hkept, limitBreaks, if_neg hfeed, trim, trimStart,
    List.dropWhile_cons_of_neg (ne_true_of_eq_false hblank)]
  exact trimEnd_cons hblank _

end Text

namespace Recorder

open Escape (Waiting escByte)
open Utf8 (startsCut replacement)

theorem waiting_splitTail (raw : Bytes) : Waiting (splitTail raw).2 := by
  rw [splitTail]
  split
  · exact Escape.waiting_drop raw
  · exact .nothing

theorem waiting_heldThrough {held : Bytes} (h : Waiting held) (feeds : List Feed) :
    Waiting (heldThrough held feeds) := by
  induction feeds generalizing held with
  | nil => exact h
  | cons feed feeds ih =>
    cases feed with
    | output data => exact ih (waiting_splitTail _)
    | input data => exact ih h

/-- A text that begins with a replacement character is no frame. -/
theorem isFrame_replacement (text : List Char) : Frame.isFrame (replacement :: text) = false := by
  have hblank : Text.isBlank replacement = false := by decide
  have hglyph : Frame.glyphs.contains replacement = false := by decide
  have hdigit : Text.isDecimalDigit replacement = false := by decide
  have hspinner : Frame.isSpinner (replacement :: text) = false := by
    simp only [Frame.isSpinner, List.all_cons, hblank, hglyph, Bool.or_self, Bool.false_and,
      Bool.and_false]
  have hprogress : Frame.isProgress (replacement :: text) = false := by
    rw [Frame.isProgress, Text.trimStart,
      List.dropWhile_cons_of_neg (ne_true_of_eq_false hblank),
      List.dropWhile_cons_of_neg (ne_true_of_eq_false hdigit)]
    rfl
  rw [Frame.isFrame, hspinner, hprogress]
  rfl

/-- A tail that starts with a cut character is read as a replacement character and more. -/
theorem clean_of_startsCut {held : Bytes} (h : Waiting held) (hstarts : startsCut held = true) :
    ∃ rest, clean held = replacement :: rest := by
  rcases h.cases_startsCut with ⟨hnot, -⟩ | ⟨-, part, rest, rfl, hcut, hrest⟩
  · rw [hnot] at hstarts
    cases hstarts
  · obtain ⟨more, hmore⟩ := hcut.decode
    have hdecode : ∃ text, Utf8.decode (part ++ rest) = replacement :: text := by
      rcases hrest with rfl | ⟨body, rfl⟩
      · rw [List.append_nil]
        exact ⟨more, hmore⟩
      · rw [Utf8.decode_append_ascii part (by decide), hmore]
        exact ⟨_, rfl⟩
    obtain ⟨text, htext⟩ := hdecode
    rw [clean, htext]
    exact Text.forTranscript_cons (by decide) (by decide) text

/-- So it is a text of its own and never a repeat. -/
theorem not_frame_of_startsCut {held : Bytes} (h : Waiting held)
    (hstarts : startsCut held = true) :
    clean held ≠ [] ∧ Frame.isFrame (clean held) = false := by
  obtain ⟨rest, htext⟩ := clean_of_startsCut h hstarts
  rw [htext]
  exact ⟨List.cons_ne_nil _ _, isFrame_replacement rest⟩

/-- Of a tail only a cut character that it starts with, and what is behind that, is recorded in the
end. -/
theorem lastArrivals_eq {held : Bytes} (h : Waiting held) :
    lastArrivals held = if startsCut held then [.shown (clean held)] else [] := by
  rcases h.cases_startsCut with ⟨hnot, rfl | ⟨body, rfl⟩⟩ | ⟨hstarts, part, rest, rfl, hcut, -⟩
  · rfl
  · rw [hnot, if_neg Bool.false_ne_true, lastArrivals, if_pos rfl]
  · rw [hstarts, if_pos rfl]
    obtain @⟨first, tail, hfirst, htail, hsize⟩ := hcut
    have hne : first ≠ escByte := by
      rintro rfl
      have hone : Utf8.announcedSize escByte = 1 := by decide
      omega
    exact if_neg hne

end Recorder

end TerminalSession
