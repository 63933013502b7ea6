import TerminalSession.Utf8

/-!
# Decoding gives back what was encoded

The bytes of a character are a first byte, which announces how many there are, and continuation
bytes (`encodeChar_eq_cons`); bytes below 0x80 stand for themselves and for nothing else
(`mem_of_mem_encode`). From these shapes follow the two laws on which reading a stream in pieces
rests:

- `decode_encode`: decoding gives back what was encoded;
- `cutCharacter_encode_append`: what is cut off at the end of a text's bytes is measured exactly.

Only the bytes of texts are spoken of here. What is so of any bytes, and of pieces of a text that are
cut inside a character, is in `Proofs/Utf8/Pieces`.
-/

set_option autoImplicit false

namespace TerminalSession.Utf8

@[simp] theorem encode_nil : encode [] = [] := rfl

theorem encode_cons (c : Char) (text : List Char) :
    encode (c :: text) = String.utf8EncodeChar c ++ encode text := rfl

theorem encode_append (text more : List Char) :
    encode (text ++ more) = encode text ++ encode more :=
  List.flatMap_append

theorem length_encode (text : List Char) : (encode text).length = size text := by
  induction text with
  | nil => rfl
  | cons c text ih =>
    rw [encode_cons, List.length_append, String.length_utf8EncodeChar, ih]
    rfl

theorem size_append (text more : List Char) : size (text ++ more) = size text + size more := by
  rw [← length_encode, encode_append, List.length_append, length_encode, length_encode]

/-! ## The bytes of a character -/

/-- The four lengths, with the bytes as numbers. -/
theorem encodeChar_cases (c : Char) :
    (c.toNat < 0x80 ∧ String.utf8EncodeChar c = [UInt8.ofNat c.toNat]) ∨
      (0x80 ≤ c.toNat ∧ c.toNat < 0x800 ∧ String.utf8EncodeChar c =
        [UInt8.ofNat (c.toNat / 64 + 192), UInt8.ofNat (c.toNat % 64 + 128)]) ∨
      (0x800 ≤ c.toNat ∧ c.toNat < 0x10000 ∧ String.utf8EncodeChar c =
        [UInt8.ofNat (c.toNat / 4096 + 224), UInt8.ofNat (c.toNat / 64 % 64 + 128),
          UInt8.ofNat (c.toNat % 64 + 128)]) ∨
      (0x10000 ≤ c.toNat ∧ c.toNat < 0x110000 ∧ String.utf8EncodeChar c =
        [UInt8.ofNat (c.toNat / 262144 + 240), UInt8.ofNat (c.toNat / 4096 % 64 + 128),
          UInt8.ofNat (c.toNat / 64 % 64 + 128), UInt8.ofNat (c.toNat % 64 + 128)]) := by
  have hmax : c.toNat < 0x110000 := by
    rcases c.valid with h | h
    · exact Nat.lt_trans h (by decide)
    · exact h.2
  have hval : c.val.toNat = c.toNat := rfl
  unfold String.utf8EncodeChar
  simp only [hval]
  split
  next h => exact .inl ⟨by omega, rfl⟩
  next h =>
    split
    next h' =>
      refine .inr (.inl ⟨by omega, by omega, ?_⟩)
      rw [Nat.mod_eq_of_lt (by omega : c.toNat / 64 < 32)]
    next h' =>
      split
      next h'' =>
        refine .inr (.inr (.inl ⟨by omega, by omega, ?_⟩))
        rw [Nat.mod_eq_of_lt (by omega : c.toNat / 4096 < 16)]
      next h'' =>
        refine .inr (.inr (.inr ⟨by omega, hmax, ?_⟩))
        rw [Nat.mod_eq_of_lt (by omega : c.toNat / 262144 < 8)]

theorem toNat_ofNat_of_lt {n : Nat} (h : n < 256) : (UInt8.ofNat n).toNat = n := by
  rw [UInt8.toNat_ofNat', Nat.mod_eq_of_lt h]

theorem isContinuation_iff (b : UInt8) :
    isContinuation b = true ↔ 0x80 ≤ b.toNat ∧ b.toNat < 0xC0 := by
  simp only [isContinuation, Bool.and_eq_true, decide_eq_true_eq, UInt8.le_iff_toNat_le,
    UInt8.lt_iff_toNat_lt]
  rfl

theorem announcedSize_eq (b : UInt8) :
    announcedSize b =
      if b.toNat < 0xC0 then 1
      else if b.toNat < 0xE0 then 2
      else if b.toNat < 0xF0 then 3
      else 4 := by
  simp only [announcedSize, UInt8.lt_iff_toNat_lt]
  rfl

/-- A remainder of 64 becomes a continuation byte. -/
theorem isContinuation_ofNat (n : Nat) : isContinuation (UInt8.ofNat (n % 64 + 128)) = true := by
  rw [isContinuation_iff, toNat_ofNat_of_lt (by omega)]
  omega

/-- A first byte, which announces the size, and continuation bytes. -/
theorem encodeChar_eq_cons (c : Char) :
    ∃ first rest, String.utf8EncodeChar c = first :: rest ∧
      announcedSize first = rest.length + 1 ∧ isContinuation first = false ∧
      (∀ b ∈ rest, isContinuation b = true) ∧
      (first.toNat < 0x80 → first.toNat = c.toNat) := by
  have hcont (n : Nat) : isContinuation (UInt8.ofNat (n % 64 + 128)) = true :=
    isContinuation_ofNat n
  have hfirst {n : Nat} (h : n < 256) (hn : n < 0x80 ∨ 0xC0 ≤ n) :
      isContinuation (UInt8.ofNat n) = false := by
    rw [← Bool.not_eq_true, isContinuation_iff, toNat_ofNat_of_lt h]
    omega
  rcases encodeChar_cases c with ⟨h, he⟩ | ⟨h, h', he⟩ | ⟨h, h', he⟩ | ⟨h, h', he⟩
  · refine ⟨_, _, he, ?_, hfirst (by omega) (by omega), nofun, fun _ => ?_⟩
    · rw [announcedSize_eq, toNat_ofNat_of_lt (by omega), if_pos (by omega)]
      rfl
    · exact toNat_ofNat_of_lt (by omega)
  · refine ⟨_, _, he, ?_, hfirst (by omega) (by omega), ?_, fun hlt => ?_⟩
    · rw [announcedSize_eq, toNat_ofNat_of_lt (by omega), if_neg (by omega), if_pos (by omega)]
      rfl
    · simp only [List.mem_singleton, forall_eq, hcont]
    · rw [toNat_ofNat_of_lt (by omega)] at hlt
      omega
  · refine ⟨_, _, he, ?_, hfirst (by omega) (by omega), ?_, fun hlt => ?_⟩
    · rw [announcedSize_eq, toNat_ofNat_of_lt (by omega), if_neg (by omega), if_neg (by omega),
        if_pos (by omega)]
      rfl
    · simp only [List.mem_cons, List.not_mem_nil, or_false, forall_eq_or_imp, forall_eq, hcont,
        and_self]
    · rw [toNat_ofNat_of_lt (by omega)] at hlt
      omega
  · refine ⟨_, _, he, ?_, hfirst (by omega) (by omega), ?_, fun hlt => ?_⟩
    · rw [announcedSize_eq, toNat_ofNat_of_lt (by omega), if_neg (by omega), if_neg (by omega),
        if_neg (by omega)]
      rfl
    · simp only [List.mem_cons, List.not_mem_nil, or_false, forall_eq_or_imp, forall_eq, hcont,
        and_self]
    · rw [toNat_ofNat_of_lt (by omega)] at hlt
      omega

theorem encodeChar_of_ascii {c : Char} (h : c.toNat < 0x80) :
    String.utf8EncodeChar c = [UInt8.ofNat c.toNat] := by
  rcases encodeChar_cases c with ⟨-, he⟩ | ⟨h', -⟩ | ⟨h', -⟩ | ⟨h', -⟩
  · exact he
  all_goals omega

/-- A byte below 0x80 stands for itself: it is in the bytes only of a text that has its character.
-/
theorem mem_of_mem_encode {b : UInt8} (h : b.toNat < 0x80) {text : List Char}
    (hb : b ∈ encode text) : Char.ofNat b.toNat ∈ text := by
  obtain ⟨c, hc, hb⟩ := List.mem_flatMap.mp hb
  obtain ⟨first, rest, he, -, -, hrest, heq⟩ := encodeChar_eq_cons c
  rw [he, List.mem_cons] at hb
  rcases hb with rfl | hb
  · rw [heq h, Char.ofNat_toNat]
    exact hc
  · have hlow := ((isContinuation_iff b).mp (hrest b hb)).1
    omega

/-! ## Decoding -/

theorem start_ofNat {n : Nat} (h : n < 256) :
    start (UInt8.ofNat n) =
      if n < 0x80 then (.ready, [Char.ofNat n])
      else if n < 0xC2 then (.ready, [replacement])
      else if n < 0xE0 then (.inside (n - 0xC0) 0 0x80 0xBF, [])
      else if n = 0xE0 then (.inside 0 1 0xA0 0xBF, [])
      else if n = 0xED then (.inside 0xD 1 0x80 0x9F, [])
      else if n < 0xF0 then (.inside (n - 0xE0) 1 0x80 0xBF, [])
      else if n = 0xF0 then (.inside 0 2 0x90 0xBF, [])
      else if n < 0xF4 then (.inside (n - 0xF0) 2 0x80 0xBF, [])
      else if n = 0xF4 then (.inside 4 2 0x80 0x8F, [])
      else (.ready, [replacement]) := by
  simp only [start, UInt8.lt_iff_toNat_lt, ← UInt8.toNat_inj, toNat_ofNat_of_lt h]
  rfl

/-- A byte within the bounds goes on with the character. -/
theorem step_inside {code more n : Nat} {low high : UInt8} (h : n < 256)
    (hlow : low.toNat ≤ n) (hhigh : n ≤ high.toNat) :
    step (.inside code more low high) (UInt8.ofNat n) =
      match more with
      | 0 => (.ready, [Char.ofNat (code * 64 + (n - 0x80))])
      | more + 1 => (.inside (code * 64 + (n - 0x80)) more 0x80 0xBF, []) := by
  have hb : (low ≤ UInt8.ofNat n && UInt8.ofNat n ≤ high) = true := by
    simp only [Bool.and_eq_true, decide_eq_true_eq, UInt8.le_iff_toNat_le, toNat_ofNat_of_lt h]
    exact ⟨hlow, hhigh⟩
  cases more with
  | zero => simp only [step, hb, if_true, toNat_ofNat_of_lt h]
  | succ more => simp only [step, hb, if_true, toNat_ofNat_of_lt h]

theorem decodeFrom_cons (stage : Stage) (b : UInt8) (bytes : Bytes) :
    decodeFrom stage (b :: bytes) = (step stage b).2 ++ decodeFrom (step stage b).1 bytes := by
  cases stage <;> rfl

theorem toNat_not_surrogate (c : Char) : c.toNat < 0xD800 ∨ 0xDFFF < c.toNat := by
  rcases c.valid with h | h
  · exact .inl h
  · exact .inr h.1

/-- The bounds that three first bytes set on the second are no bounds for the bytes of a character.
-/
theorem start_three (c : Char) (h : 0x800 ≤ c.toNat) (h' : c.toNat < 0x10000) :
    ∃ low high, start (UInt8.ofNat (c.toNat / 4096 + 224)) =
        (.inside (c.toNat / 4096) 1 low high, []) ∧
      low.toNat ≤ c.toNat / 64 % 64 + 128 ∧ c.toNat / 64 % 64 + 128 ≤ high.toNat := by
  have hs := toNat_not_surrogate c
  rw [start_ofNat (by omega), if_neg (by omega), if_neg (by omega), if_neg (by omega)]
  split
  next he =>
    refine ⟨0xA0, 0xBF, by rw [show c.toNat / 4096 = 0 by omega], ?_, ?_⟩
    · show 160 ≤ _
      omega
    · show _ ≤ 191
      omega
  next he =>
    split
    next hd =>
      refine ⟨0x80, 0x9F, by rw [show c.toNat / 4096 = 13 by omega], Nat.le_add_left _ _, ?_⟩
      show _ ≤ 159
      omega
    next hd =>
      rw [if_pos (by omega), Nat.add_sub_cancel]
      refine ⟨0x80, 0xBF, rfl, Nat.le_add_left _ _, ?_⟩
      show _ ≤ 191
      omega

/-- The same of four bytes. -/
theorem start_four (c : Char) (h : 0x10000 ≤ c.toNat) (h' : c.toNat < 0x110000) :
    ∃ low high, start (UInt8.ofNat (c.toNat / 262144 + 240)) =
        (.inside (c.toNat / 262144) 2 low high, []) ∧
      low.toNat ≤ c.toNat / 4096 % 64 + 128 ∧ c.toNat / 4096 % 64 + 128 ≤ high.toNat := by
  rw [start_ofNat (by omega), if_neg (by omega), if_neg (by omega), if_neg (by omega),
    if_neg (by omega), if_neg (by omega), if_neg (by omega)]
  split
  next he =>
    refine ⟨0x90, 0xBF, by rw [show c.toNat / 262144 = 0 by omega], ?_, ?_⟩
    · show 144 ≤ _
      omega
    · show _ ≤ 191
      omega
  next he =>
    split
    next hm =>
      rw [Nat.add_sub_cancel]
      refine ⟨0x80, 0xBF, rfl, Nat.le_add_left _ _, ?_⟩
      show _ ≤ 191
      omega
    next hm =>
      rw [if_pos (by omega)]
      refine ⟨0x80, 0x8F, by rw [show c.toNat / 262144 = 4 by omega], Nat.le_add_left _ _, ?_⟩
      show _ ≤ 143
      omega

/-- A continuation byte goes on with the character, when nothing else bounds it. -/
theorem step_inside_cont (code more n : Nat) :
    step (.inside code more 0x80 0xBF) (UInt8.ofNat (n % 64 + 128)) =
      match more with
      | 0 => (.ready, [Char.ofNat (code * 64 + n % 64)])
      | more + 1 => (.inside (code * 64 + n % 64) more 0x80 0xBF, []) := by
  have hlow : (0x80 : UInt8).toNat ≤ n % 64 + 128 := Nat.le_add_left _ _
  have hhigh : n % 64 + 128 ≤ (0xBF : UInt8).toNat := by
    show _ ≤ 191
    omega
  rw [step_inside (by omega) hlow hhigh, Nat.add_sub_cancel]

/-- Between characters, the bytes of a character are read as that character. -/
theorem decodeFrom_encodeChar (c : Char) (bytes : Bytes) :
    decodeFrom .ready (String.utf8EncodeChar c ++ bytes) = c :: decodeFrom .ready bytes := by
  have hready (b : UInt8) : step .ready b = start b := rfl
  rcases encodeChar_cases c with ⟨h, he⟩ | ⟨h, h', he⟩ | ⟨h, h', he⟩ | ⟨h, h', he⟩ <;>
    simp only [he, List.cons_append, List.nil_append, decodeFrom_cons, hready]
  · rw [start_ofNat (by omega), if_pos h, Char.ofNat_toNat]
    rfl
  · rw [start_ofNat (by omega), if_neg (by omega), if_neg (by omega), if_pos (by omega),
      Nat.add_sub_cancel]
    simp only [step_inside_cont, List.nil_append, List.singleton_append]
    rw [Nat.mul_comm, Nat.div_add_mod, Char.ofNat_toNat]
  · obtain ⟨low, high, hfirst, hlow, hhigh⟩ := start_three c h h'
    have hcode : (c.toNat / 4096 * 64 + c.toNat / 64 % 64) * 64 + c.toNat % 64 = c.toNat := by omega
    simp only [hfirst, step_inside (by omega) hlow hhigh, step_inside_cont, Nat.add_sub_cancel,
      List.nil_append, List.singleton_append, hcode, Char.ofNat_toNat]
  · obtain ⟨low, high, hfirst, hlow, hhigh⟩ := start_four c h h'
    have hcode : ((c.toNat / 262144 * 64 + c.toNat / 4096 % 64) * 64 + c.toNat / 64 % 64) * 64 +
        c.toNat % 64 = c.toNat := by omega
    simp only [hfirst, step_inside (by omega) hlow hhigh, step_inside_cont, Nat.add_sub_cancel,
      List.nil_append, List.singleton_append, hcode, Char.ofNat_toNat]

theorem decode_encode_append (text : List Char) (bytes : Bytes) :
    decode (encode text ++ bytes) = text ++ decode bytes := by
  induction text with
  | nil => rfl
  | cons c text ih =>
    rw [encode_cons, List.append_assoc, decode, decodeFrom_encodeChar]
    exact congrArg (c :: ·) ih

/-- **Decoding gives back what was encoded.** -/
theorem decode_encode (text : List Char) : decode (encode text) = text := by
  have h := decode_encode_append text []
  rwa [List.append_nil, show decode [] = [] from rfl, List.append_nil] at h

/-- The bytes that are UTF-8 throughout are those of texts. -/
theorem decode?_eq_some_iff {bytes : Bytes} {text : List Char} :
    decode? bytes = some text ↔ bytes = encode text := by
  rw [decode?]
  constructor
  · intro h
    split at h
    next hsame =>
      rw [← Option.some.inj h, hsame]
    next => cases h
  · rintro rfl
    rw [decode_encode]
    exact if_pos rfl

/-! ## Characters cut off -/

/-- Continuation bytes are passed over as far as the reach goes. -/
theorem cutBehind_append {tail : Bytes} (h : ∀ b ∈ tail, isContinuation b = true)
    (reach seen : Nat) (earlier : Bytes) :
    cutBehind reach seen (tail ++ earlier) =
      cutBehind (reach - tail.length) (seen + tail.length) earlier := by
  induction tail generalizing reach seen with
  | nil => rfl
  | cons b tail ih =>
    cases reach with
    | zero => simp only [cutBehind, Nat.zero_sub]
    | succ reach =>
      obtain ⟨hb, htail⟩ := List.forall_mem_cons.mp h
      rw [List.cons_append, cutBehind, if_pos hb, ih htail, List.length_cons, Nat.add_sub_add_right,
        Nat.add_assoc, Nat.add_comm 1]

theorem announcedSize_le (b : UInt8) : announcedSize b ≤ 4 := by
  rw [announcedSize_eq]
  repeat' split
  all_goals decide

/-- What is cut off is measured from the last first byte on. -/
theorem cutCharacter_append_cons (earlier : Bytes) {first : UInt8} {tail : Bytes}
    (hfirst : isContinuation first = false) (htail : ∀ b ∈ tail, isContinuation b = true) :
    cutCharacter (earlier ++ first :: tail) =
      if tail.length + 1 < announcedSize first then tail.length + 1 else 0 := by
  have hrev : ∀ b ∈ tail.reverse, isContinuation b = true := fun b hb =>
    htail b (List.mem_reverse.mp hb)
  rw [cutCharacter, List.reverse_append, List.reverse_cons, List.append_assoc,
    cutBehind_append hrev, List.length_reverse, Nat.zero_add]
  rcases hreach : 3 - tail.length with - | reach
  · have hle := announcedSize_le first
    rw [if_neg (by omega)]
    rfl
  · rw [List.singleton_append, cutBehind, hfirst, if_neg Bool.false_ne_true]

theorem cutCharacter_encode (text : List Char) : cutCharacter (encode text) = 0 := by
  rcases List.eq_nil_or_concat text with rfl | ⟨text, c, rfl⟩
  · rfl
  · obtain ⟨first, rest, he, hsize, hfirst, hrest, -⟩ := encodeChar_eq_cons c
    rw [List.concat_eq_append, encode_append, encode_cons, encode_nil, List.append_nil, he,
      cutCharacter_append_cons _ hfirst hrest, hsize, if_neg (Nat.lt_irrefl _)]

/-- **What is cut off at the end of a text's bytes is measured exactly**: it is whatever part of the
next character's bytes is there. -/
theorem cutCharacter_encode_append (text : List Char) {c : Char} {part missing : Bytes}
    (h : part ++ missing = String.utf8EncodeChar c) (hmissing : missing ≠ []) :
    cutCharacter (encode text ++ part) = part.length := by
  cases part with
  | nil => rw [List.append_nil, cutCharacter_encode, List.length_nil]
  | cons b part =>
    obtain ⟨first, rest, he, hsize, hfirst, hrest, -⟩ := encodeChar_eq_cons c
    obtain ⟨rfl, rfl⟩ := List.cons_eq_cons.mp (h.trans he)
    have hpart : ∀ b ∈ part, isContinuation b = true := fun b hb =>
      hrest b (List.mem_append_left _ hb)
    have hlen := List.length_pos_iff.mpr hmissing
    have hmore : part.length + 1 < announcedSize b := by
      rw [hsize, List.append_eq, List.length_append]
      omega
    rw [cutCharacter_append_cons _ hfirst hpart, if_pos hmore, List.length_cons]

end TerminalSession.Utf8
