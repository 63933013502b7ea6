import TerminalSession.Proofs.Recorder.Repeats
import TerminalSession.Proofs.Utf8.Pieces

/-!
# What is typed, in chunks

Input is recorded as it comes, a record for each chunk. Unlike output, no part of a chunk is held
back: each chunk is decoded by itself, and a key that is pressed by itself is left out if it is a
control key.

So the records of input are the typed text where no chunk begins inside a character, and only there
(`typedText_recorded`). A character that is cut in two is recorded as replacement characters, and
nothing that comes later mends it. Flushes, waits, what is shown in between and what fills the buffer
make no difference.
-/

set_option autoImplicit false

namespace TerminalSession.Recorder

open Utf8 (encode decode beginsInside replacement)

/-- The bytes of a chunk of input. -/
def Feed.input? : Feed → Option Bytes
  | .input data => some data
  | .output _ => none

/-- The chunks of input that come in. -/
def typedChunks (feeds : List Feed) : List Bytes := feeds.filterMap Feed.input?

/-- The text that arrives because it was typed. -/
def Arrival.typed? : Arrival → Option (List Char)
  | .typed text => some text
  | .shown _ => none

/-- The texts of the records of input, joined. -/
def typedText (records : List Record) : List Char :=
  (records.filter fun record => record.direction = .input).flatMap Record.text

/-! ## From chunks to records -/

theorem typedText_append (records more : List Record) :
    typedText (records ++ more) = typedText records ++ typedText more := by
  rw [typedText, List.filter_append, List.flatMap_append]
  rfl

theorem typedText_countRecord (repeats : Nat) : typedText (countRecord repeats) = [] := by
  cases repeats with
  | zero => rfl
  | succ repeats => rfl

/-- Counting repeats leaves alone what is typed in between. -/
theorem typedText_collapse (last : List Char) (repeats : Nat) (coming : List Arrival) :
    typedText (collapse last repeats coming) = (coming.filterMap Arrival.typed?).flatten := by
  induction coming generalizing last repeats with
  | nil => exact typedText_countRecord repeats
  | cons arrival coming ih =>
    cases arrival with
    | typed text => exact congrArg (text ++ ·) (ih last repeats)
    | shown text =>
      rw [collapse]
      split
      · exact ih last repeats
      · split
        · exact ih last (repeats + 1)
        · rw [typedText_append, typedText_countRecord]
          exact ih text 0

/-- Nothing that comes of output counts as typed. -/
theorem typed_lastArrivals (held : Bytes) : (lastArrivals held).filterMap Arrival.typed? = [] := by
  cases held with
  | nil => rfl
  | cons first rest =>
    rw [lastArrivals]
    split
    · rfl
    · rfl

/-- Chunks that are no control keys arrive as their texts. -/
theorem typed_arrivals (held : Bytes) {feeds : List Feed}
    (h : ∀ chunk ∈ typedChunks feeds, isControlKey chunk = false) :
    ((arrivals held feeds).filterMap Arrival.typed?).flatten =
      (typedChunks feeds).flatMap decode := by
  induction feeds generalizing held with
  | nil => exact congrArg List.flatten (typed_lastArrivals held)
  | cons feed feeds ih =>
    cases feed with
    | output data => exact ih (heldAfter held data) h
    | input data =>
      obtain ⟨hkey, hrest⟩ := List.forall_mem_cons.mp h
      rw [arrivals, hkey, Bool.or_false]
      cases data with
      | nil => exact ih held hrest
      | cons b data => exact congrArg (decode (b :: data) ++ ·) (ih held hrest)

/-- A text without control characters is not typed in control keys. -/
theorem isControlKey_eq_false {text : List Char}
    (plain : ∀ c ∈ text, c.toNat < 0x20 → c = '\n' ∨ c = '\r') {chunks : List Bytes}
    (h : chunks.flatten = encode text) {chunk : Bytes} (hchunk : chunk ∈ chunks) :
    isControlKey chunk = false := by
  match chunk with
  | [] => rfl
  | [b] =>
    refine Bool.eq_false_iff.mpr fun hkey => ?_
    simp only [isControlKey, Bool.and_eq_true, decide_eq_true_eq, bne_iff_ne, ne_eq] at hkey
    obtain ⟨⟨hlt, hfeed⟩, hreturn⟩ := hkey
    have hlow : b.toNat < 0x20 := UInt8.lt_iff_toNat_lt.mp hlt
    have hmem : b ∈ encode text := by
      rw [← h]
      exact List.mem_flatten.mpr ⟨[b], hchunk, List.mem_singleton_self b⟩
    have hcode := Utf8.toNat_ofNat_byte b
    rcases plain _ (Utf8.mem_of_mem_encode (by omega) hmem) (by omega) with heq | heq
    · rw [heq] at hcode
      exact hfeed (UInt8.toNat_inj.mp hcode.symm)
    · rw [heq] at hcode
      exact hreturn (UInt8.toNat_inj.mp hcode.symm)
  | _ :: _ :: _ => rfl

/-- **Input is recorded verbatim where no chunk begins inside a character.** For a text without
control characters but line feeds and carriage returns, typed in chunks among whatever else a
recorder is told before it is stopped,

- the records of input give the text back exactly if no chunk begins inside a character;
- each chunk that does adds at least one character. -/
theorem typedText_recorded (cfg : Config) (now capacity : Nat) {steps : List (Stage.Step Call)}
    (running : .call .stop ∉ steps) {text : List Char}
    (plain : ∀ c ∈ text, c.toNat < 0x20 → c = '\n' ∨ c = '\r')
    (h : (typedChunks (feeds steps)).flatten = encode text) :
    (typedText (recorded cfg now capacity steps) = text ↔
        ∀ chunk ∈ typedChunks (feeds steps), beginsInside chunk = false) ∧
      text.length + (typedChunks (feeds steps)).countP beginsInside ≤
        (typedText (recorded cfg now capacity steps)).length := by
  have hrecorded : typedText (recorded cfg now capacity steps) =
      (typedChunks (feeds steps)).flatMap decode := by
    rw [recorded, handedOver_to_end cfg now capacity running, transcript, typedText_collapse]
    exact typed_arrivals [] fun chunk hchunk => isControlKey_eq_false plain h hchunk
  rw [hrecorded]
  exact ⟨Utf8.flatMap_decode_eq_iff h, Utf8.length_le_pieces h⟩

/-- A text is typed in three chunks, one of which ends behind a character of two bytes. -/
def typedWhole : List (Stage.Step Call) :=
  [.call (.input [0x61]), .call (.output [0x7C]), .call (.input [0xC3, 0xA9]), .sleep 1500,
    .call (.output [0x7C]), .call (.input [0x0D])]

theorem typedText_recorded_typedWhole :
    .call .stop ∉ typedWhole ∧
      (∀ c ∈ ['a', 'é', '\r'], c.toNat < 0x20 → c = '\n' ∨ c = '\r') ∧
      (typedChunks (feeds typedWhole)).flatten = encode ['a', 'é', '\r'] ∧
      typedText (recorded smallBuffer 0 1 typedWhole) = ['a', 'é', '\r'] := by
  have running : .call .stop ∉ typedWhole := by
    simp only [typedWhole, List.mem_cons, List.not_mem_nil, Stage.Step.call.injEq, reduceCtorEq,
      or_self, not_false_eq_true]
  have plain : ∀ c ∈ ['a', 'é', '\r'], c.toNat < 0x20 → c = '\n' ∨ c = '\r' := by
    intro c hc hlow
    simp only [List.mem_cons, List.not_mem_nil, or_false] at hc
    rcases hc with rfl | rfl | rfl
    · exact absurd hlow (by decide)
    · exact absurd hlow (by decide)
    · exact .inr rfl
  have htext : (typedChunks (feeds typedWhole)).flatten = encode ['a', 'é', '\r'] := by decide +kernel
  have hrecorded := (typedText_recorded smallBuffer 0 1 running plain htext).1
  exact ⟨running, plain, htext, hrecorded.mpr (by decide +kernel)⟩

/-- The same character is typed in two chunks, each of which has one of its bytes. -/
def typedInHalves : List (Stage.Step Call) := [.call (.input [0xC3]), .call (.input [0xA9])]

/-- It is not recorded: each half of it is a replacement character. -/
theorem typedText_of_typedInHalves :
    .call .stop ∉ typedInHalves ∧
      (∀ chunk ∈ typedChunks (feeds typedInHalves), chunk ≠ []) ∧
      (∀ c ∈ ['é'], c.toNat < 0x20 → c = '\n' ∨ c = '\r') ∧
      (typedChunks (feeds typedInHalves)).flatten = encode ['é'] ∧
      typedText (recorded smallBuffer 0 1 typedInHalves) = [replacement, replacement] ∧
      typedText (recorded smallBuffer 0 1 typedInHalves) ≠ ['é'] := by
  have running : .call .stop ∉ typedInHalves := by
    simp only [typedInHalves, List.mem_cons, List.not_mem_nil, Stage.Step.call.injEq, reduceCtorEq,
      or_self, not_false_eq_true]
  have plain : ∀ c ∈ ['é'], c.toNat < 0x20 → c = '\n' ∨ c = '\r' := by
    intro c hc hlow
    rw [List.mem_singleton.mp hc] at hlow
    exact absurd hlow (by decide)
  exact ⟨running, by decide +kernel, plain, by decide +kernel, by decide +kernel, by decide +kernel⟩

end TerminalSession.Recorder
