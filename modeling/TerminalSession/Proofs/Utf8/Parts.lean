import TerminalSession.Proofs.Utf8.Pieces

/-!
# The parts that any bytes come apart into

Bytes of any kind are decoded part by part, each part to one character: the bytes of that character,
or at most three bytes that are none, for which a replacement stands (`Part`). A part of the first
kind takes up as many bytes as its character does when it is encoded again. One of the second kind may
take up fewer than the three of a replacement, and lacks the others (`Part.size_char`).

So a place in the decoded text is one in the bytes, too (`exists_parts`), but not the same number of
bytes away from the beginning: it is further by what the damaged parts before it lack (`size_chars`).

That a character which was completed has been read from its own bytes, and no others, is followed
through the stages: whichever bytes within the bounds go on with it, they spell it (`Spells`).
-/

set_option autoImplicit false

namespace TerminalSession.Utf8

/-! ## The bytes of a character begun -/

/-- Whichever bytes within the bounds go on with a character, they spell it, with those seen of it.
-/
def Spells : (seen : Bytes) → (more code low high : Nat) → Prop
  | seen, 0, code, low, high => ∀ n, low ≤ n → n ≤ high →
    String.utf8EncodeChar (Char.ofNat (code * 64 + (n - 0x80))) = seen ++ [UInt8.ofNat n]
  | seen, more + 1, code, low, high => ∀ n, low ≤ n → n ≤ high →
    Spells (seen ++ [UInt8.ofNat n]) more (code * 64 + (n - 0x80)) 0x80 0xBF

theorem spells_two {first : Nat} (h : 0xC2 ≤ first) (h' : first < 0xE0) :
    Spells [UInt8.ofNat first] 0 (first - 0xC0) 0x80 0xBF := by
  intro n hlow hhigh
  generalize hcode : (first - 0xC0) * 64 + (n - 0x80) = code
  have htoNat : (Char.ofNat code).toNat = code := toNat_ofNat_of_valid (.inl (by omega))
  have hfirst : code / 64 + 192 = first := by omega
  have hsecond : code % 64 + 128 = n := by omega
  rcases encodeChar_cases (Char.ofNat code) with ⟨hlt, -⟩ | ⟨-, -, he⟩ | ⟨hle, -⟩ | ⟨hle, -⟩
  · omega
  · rw [he, htoNat, hfirst, hsecond]
    rfl
  all_goals omega

theorem spells_three {first low high : Nat} (h : 0xE0 ≤ first) (h' : first < 0xF0)
    (hlow : 0x80 ≤ low) (hhigh : high ≤ 0xBF) (hshort : first = 0xE0 → 0xA0 ≤ low)
    (hsurrogate : first = 0xED → high ≤ 0x9F) :
    Spells [UInt8.ofNat first] 1 (first - 0xE0) low high := by
  intro n hn hn' m hm hm'
  generalize hcode : ((first - 0xE0) * 64 + (n - 0x80)) * 64 + (m - 0x80) = code
  have hvalid : code.isValidChar := by
    by_cases hle : first ≤ 0xED
    · exact .inl (by omega)
    · exact .inr (by omega)
  have htoNat : (Char.ofNat code).toNat = code := toNat_ofNat_of_valid hvalid
  have hfirst : code / 4096 + 224 = first := by omega
  have hsecond : code / 64 % 64 + 128 = n := by omega
  have hthird : code % 64 + 128 = m := by omega
  rcases encodeChar_cases (Char.ofNat code) with ⟨hlt, -⟩ | ⟨-, hlt, -⟩ | ⟨-, -, he⟩ | ⟨hle, -⟩
  · omega
  · omega
  · rw [he, htoNat, hfirst, hsecond, hthird]
    rfl
  · omega

theorem spells_four {first low high : Nat} (h : 0xF0 ≤ first) (h' : first ≤ 0xF4)
    (hlow : 0x80 ≤ low) (hhigh : high ≤ 0xBF) (hshort : first = 0xF0 → 0x90 ≤ low)
    (hlast : first = 0xF4 → high ≤ 0x8F) :
    Spells [UInt8.ofNat first] 2 (first - 0xF0) low high := by
  intro n hn hn' m hm hm' k hk hk'
  generalize hcode :
    (((first - 0xF0) * 64 + (n - 0x80)) * 64 + (m - 0x80)) * 64 + (k - 0x80) = code
  have htoNat : (Char.ofNat code).toNat = code := toNat_ofNat_of_valid (.inr (by omega))
  have hfirst : code / 262144 + 240 = first := by omega
  have hsecond : code / 4096 % 64 + 128 = n := by omega
  have hthird : code / 64 % 64 + 128 = m := by omega
  have hfourth : code % 64 + 128 = k := by omega
  rcases encodeChar_cases (Char.ofNat code) with ⟨hlt, -⟩ | ⟨-, hlt, -⟩ | ⟨-, hlt, -⟩ | ⟨-, -, he⟩
  · omega
  · omega
  · omega
  · rw [he, htoNat, hfirst, hsecond, hthird, hfourth]
    rfl

/-- A first byte begins a character that it spells. -/
theorem spells_start {b : UInt8} {code more : Nat} {low high : UInt8}
    (h : (start b).1 = .inside code more low high) :
    Spells [b] more code low.toNat high.toNat := by
  have hlt : b.toNat < 256 := b.toNat_lt
  rw [show b = UInt8.ofNat b.toNat from UInt8.ofNat_toNat.symm] at h ⊢
  rw [start_ofNat hlt] at h
  generalize b.toNat = n at h ⊢
  repeat' split at h
  all_goals simp only [Stage.inside.injEq, reduceCtorEq] at h
  all_goals
    obtain ⟨rfl, rfl, rfl, rfl⟩ := h
    simp only [UInt8.reduceToNat]
  -- Four of the first bytes bound the second one further: E0, ED, F0 and F4.
  · exact spells_two (by omega) (by omega)
  · subst n
    exact spells_three (by decide) (by decide) (by decide) (by decide) (by decide) (by decide)
  · subst n
    exact spells_three (by decide) (by decide) (by decide) (by decide) (by decide) (by decide)
  · exact spells_three (by omega) (by omega) (by omega) (by omega) (by omega) (by omega)
  · subst n
    exact spells_four (by decide) (by decide) (by decide) (by decide) (by decide) (by decide)
  · exact spells_four (by omega) (by omega) (by omega) (by omega) (by omega) (by omega)
  · subst n
    exact spells_four (by decide) (by decide) (by decide) (by decide) (by decide) (by decide)

/-- A character begun is either spelled out or given up, and then it is decoded as it would be if
nothing followed it. What follows is decoded by itself. -/
theorem exists_of_inside {seen : Bytes} {code more : Nat} {low high : UInt8}
    (hspells : Spells seen more code low.toNat high.toNat) (bytes : Bytes) :
    ∃ tail rest, bytes = tail ++ rest ∧
      ((∃ c, seen ++ tail = String.utf8EncodeChar c ∧
          decodeFrom (.inside code more low high) bytes = c :: decode rest) ∨
        tail.length ≤ more ∧ decodeFrom (.inside code more low high) tail = [replacement] ∧
          decodeFrom (.inside code more low high) bytes = replacement :: decode rest) := by
  induction bytes generalizing seen code more low high with
  | nil => exact ⟨[], [], rfl, .inr ⟨Nat.zero_le _, rfl, rfl⟩⟩
  | cons b bytes ih =>
    cases hb : (low ≤ b && b ≤ high) with
    | false =>
      refine ⟨[], b :: bytes, rfl, .inr ⟨Nat.zero_le _, rfl, ?_⟩⟩
      rw [decodeFrom_cons, step_inside_afresh hb]
      rfl
    | true =>
      obtain ⟨hlow, hhigh⟩ := within_iff.mp hb
      cases more with
      | zero =>
        have hspelled := hspells b.toNat hlow hhigh
        rw [UInt8.ofNat_toNat] at hspelled
        refine ⟨[b], bytes, rfl, .inl ⟨_, hspelled.symm, ?_⟩⟩
        rw [decodeFrom_cons, step, if_pos hb]
        rfl
      | succ more =>
        have hstep (rest : Bytes) : decodeFrom (.inside code (more + 1) low high) (b :: rest) =
            decodeFrom (.inside (code * 64 + (b.toNat - 0x80)) more 0x80 0xBF) rest := by
          rw [decodeFrom_cons, step, if_pos hb]
          rfl
        have hgoes : Spells (seen ++ [b]) more (code * 64 + (b.toNat - 0x80))
            (0x80 : UInt8).toNat (0xBF : UInt8).toNat := by
          have h := hspells b.toNat hlow hhigh
          rwa [UInt8.ofNat_toNat] at h
        obtain ⟨tail, rest, rfl, hread⟩ := ih hgoes
        refine ⟨b :: tail, rest, rfl, ?_⟩
        rw [hstep, hstep]
        rcases hread with ⟨c, hc, hread⟩ | ⟨hlen, htail, hread⟩
        · refine .inl ⟨c, ?_, hread⟩
          rw [← hc, List.append_assoc]
          rfl
        · exact .inr ⟨Nat.succ_le_succ hlen, htail, hread⟩

/-! ## Parts -/

/-- Bytes that are decoded to one character. -/
inductive Part where
  /-- The bytes of the character. -/
  | whole (c : Char)
  /-- Bytes that a replacement stands for. -/
  | damaged (bytes : Bytes) (hread : decode bytes = [replacement]) (hlen : bytes.length ≤ 3)

namespace Part

def bytes : Part → Bytes
  | whole c => String.utf8EncodeChar c
  | damaged bytes _ _ => bytes

/-- The character that a part is decoded to. -/
def char : Part → Char
  | whole c => c
  | damaged _ _ _ => replacement

/-- How many bytes fewer than its character a part takes. -/
def lack : Part → Nat
  | whole _ => 0
  | damaged bytes _ _ => 3 - bytes.length

theorem size_char (part : Part) : part.char.utf8Size = part.bytes.length + part.lack := by
  cases part with
  | whole c => exact (String.length_utf8EncodeChar c).symm
  | damaged bytes hread hlen => exact (Nat.add_sub_cancel' hlen).symm

end Part

/-- The bytes that parts make up. -/
def joined (parts : List Part) : Bytes := parts.flatMap Part.bytes

theorem joined_cons (part : Part) (parts : List Part) :
    joined (part :: parts) = part.bytes ++ joined parts := rfl

/-- How many bytes fewer than their characters parts take. -/
def lacking : List Part → Nat
  | [] => 0
  | part :: parts => part.lack + lacking parts

theorem lacking_eq_zero_iff {parts : List Part} :
    lacking parts = 0 ↔ ∀ part ∈ parts, part.lack = 0 := by
  induction parts with
  | nil => exact ⟨fun _ => nofun, fun _ => rfl⟩
  | cons part parts ih => rw [lacking, Nat.add_eq_zero_iff, ih, List.forall_mem_cons]

/-- The characters take up what the bytes do, and what is lacking. -/
theorem size_chars (parts : List Part) :
    size (parts.map Part.char) = (joined parts).length + lacking parts := by
  induction parts with
  | nil => rfl
  | cons part parts ih =>
    have hpart := part.size_char
    rw [List.map_cons, size, ih, joined_cons, List.length_append, lacking]
    omega

/-- **The bytes of the first character are a part**, and what follows them is decoded by itself. -/
theorem exists_part {bytes : Bytes} (h : bytes ≠ []) :
    ∃ (part : Part) (rest : Bytes), bytes = part.bytes ++ rest ∧
      decode bytes = part.char :: decode rest := by
  cases bytes with
  | nil => exact absurd rfl h
  | cons b bytes =>
    have hdecode (rest : Bytes) : decode (b :: rest) = (start b).2 ++ decodeFrom (start b).1 rest :=
      rfl
    rcases start_cases b with ⟨hb, -⟩ | ⟨-, hstart | ⟨code, more, low, high, hstart⟩⟩
    · refine ⟨.whole (Char.ofNat b.toNat), bytes, ?_, decode_ascii_cons hb bytes⟩
      have hascii : (Char.ofNat b.toNat).toNat < 0x80 := by
        rw [toNat_ofNat_byte]
        exact hb
      rw [Part.bytes, encodeChar_of_ascii hascii, toNat_ofNat_byte, UInt8.ofNat_toNat]
      rfl
    · have hread : decode [b] = [replacement] := by
        rw [hdecode, hstart]
        rfl
      refine ⟨.damaged [b] hread (Nat.le_add_left 1 2), bytes, rfl, ?_⟩
      rw [hdecode, hstart]
      rfl
    · have hstage : (start b).1 = .inside code more low high := by rw [hstart]
      have hmore : more ≤ 2 := by
        have hsize := (start_inside hstage).2
        have hle := announcedSize_le b
        omega
      obtain ⟨tail, rest, rfl, hread⟩ := exists_of_inside (spells_start hstage) bytes
      rcases hread with ⟨c, hc, hread⟩ | ⟨hlen, htail, hread⟩
      · refine ⟨.whole c, rest, ?_, ?_⟩
        · rw [Part.bytes, ← hc]
          rfl
        · rw [hdecode, hstart]
          exact hread
      · have hdamaged : decode (b :: tail) = [replacement] := by
          rw [hdecode, hstart]
          exact htail
        refine ⟨.damaged (b :: tail) hdamaged ?_, rest, rfl, ?_⟩
        · rw [List.length_cons]
          omega
        · rw [hdecode, hstart]
          exact hread

/-- **A place in the decoded text is a place between parts.** -/
theorem exists_parts {data : Bytes} {before after : List Char} (h : decode data = before ++ after) :
    ∃ (parts : List Part) (behind : Bytes), data = joined parts ++ behind ∧
      parts.map Part.char = before ∧ decode behind = after := by
  induction before generalizing data with
  | nil => exact ⟨[], data, rfl, rfl, h⟩
  | cons c before ih =>
    have hdata : data ≠ [] := by
      rintro rfl
      cases h
    obtain ⟨part, rest, rfl, hpart⟩ := exists_part hdata
    rw [hpart, List.cons_append, List.cons.injEq] at h
    obtain ⟨parts, behind, rfl, rfl, hbehind⟩ := ih h.2
    refine ⟨part :: parts, behind, ?_, ?_, hbehind⟩
    · rw [joined_cons, List.append_assoc]
    · rw [List.map_cons, h.1]

end TerminalSession.Utf8
