import TerminalSession.Proofs.Utf8.Codec

/-!
# Decoding in pieces

Bytes need not be UTF-8, and a stream of them can be cut anywhere. Decoding the pieces one by one is
decoding the whole wherever the decoder stands between two characters at the cut:

- before a byte that continues no character (`decode_append_cons`, `decode_append_ascii`);
- behind bytes that cut no character off (`CutOff.decode_append`). `cutCharacter` measures, for bytes
  of any kind, how far back from their end such a place is (`exists_cutOff`).

A byte below 0x80 stands for itself and for nothing else, whatever surrounds it (`mem_decode_iff`):
overlong forms are kept out, so other bytes never come to a character below 0x80.

Where a text is cut inside a character more characters come out than went in (`length_le_pieces`), so
its pieces give it back exactly if none of them begins inside a character (`flatMap_decode_eq_iff`).
-/

set_option autoImplicit false

namespace TerminalSession.Utf8

/-! ## What a character begun can come to -/

/-- The code of a character beyond ASCII. -/
def IsWide (code : Nat) : Prop := 0x80 ≤ code ∧ code.isValidChar

/-- Whichever bytes within the bounds go on with a character, it comes to one beyond ASCII. -/
def EndsWide : (more code low high : Nat) → Prop
  | 0, code, low, high => ∀ n, low ≤ n → n ≤ high → IsWide (code * 64 + (n - 0x80))
  | more + 1, code, low, high =>
    ∀ n, low ≤ n → n ≤ high → EndsWide more (code * 64 + (n - 0x80)) 0x80 0xBF

/-- A stage at which only continuation bytes go on with a character, to one beyond ASCII. -/
def Stage.Sound : Stage → Prop
  | .ready => True
  | .inside code more low high =>
    (0x80 ≤ low.toNat ∧ high.toNat < 0xC0) ∧ EndsWide more code low.toNat high.toNat

theorem sound_ready : Stage.ready.Sound := True.intro

theorem toNat_ofNat_of_valid {code : Nat} (h : code.isValidChar) : (Char.ofNat code).toNat = code := by
  rw [Char.ofNat, dif_pos h]
  rfl

/-- The bounds on the second byte keep out what is no character or has a shorter form. -/
theorem sound_start (b : UInt8) : (start b).1.Sound := by
  have hlt : b.toNat < 256 := b.toNat_lt
  rw [show b = UInt8.ofNat b.toNat from UInt8.ofNat_toNat.symm, start_ofNat hlt]
  generalize b.toNat = n
  repeat' split
  all_goals first
    | exact True.intro
    | refine ⟨by decide, ?_⟩
      simp only [EndsWide, IsWide, Nat.isValidChar, UInt8.reduceToNat]
      omega

/-- A byte that a character ends before is read afresh. -/
theorem step_inside_afresh {code more : Nat} {low high b : UInt8}
    (h : (low ≤ b && b ≤ high) = false) :
    step (.inside code more low high) b = ((start b).1, replacement :: (start b).2) := by
  simp only [step, h, Bool.false_eq_true, if_false]

theorem within_iff {low high b : UInt8} :
    (low ≤ b && b ≤ high) = true ↔ low.toNat ≤ b.toNat ∧ b.toNat ≤ high.toNat := by
  rw [Bool.and_eq_true, decide_eq_true_eq, decide_eq_true_eq, UInt8.le_iff_toNat_le,
    UInt8.le_iff_toNat_le]

/-- Only a continuation byte goes on with a character. -/
theorem Stage.Sound.isContinuation {code more : Nat} {low high b : UInt8}
    (h : (Stage.inside code more low high).Sound) (hb : (low ≤ b && b ≤ high) = true) :
    isContinuation b = true := by
  obtain ⟨hlow, hhigh⟩ := within_iff.mp hb
  rw [isContinuation_iff]
  exact ⟨Nat.le_trans h.1.1 hlow, Nat.lt_of_le_of_lt hhigh h.1.2⟩

/-- What a byte within the bounds does: it completes a character beyond ASCII, or goes on with one.
-/
theorem Stage.Sound.step_within {code more : Nat} {low high b : UInt8}
    (h : (Stage.inside code more low high).Sound) (hb : (low ≤ b && b ≤ high) = true) :
    (more = 0 ∧ ∃ c : Char, 0x80 ≤ c.toNat ∧
        step (.inside code more low high) b = (.ready, [c])) ∨
      ∃ more', more = more' + 1 ∧ ∃ code', (Stage.inside code' more' 0x80 0xBF).Sound ∧
        step (.inside code more low high) b = (.inside code' more' 0x80 0xBF, []) := by
  obtain ⟨hlow, hhigh⟩ := within_iff.mp hb
  cases more with
  | zero =>
    have hwide : IsWide (code * 64 + (b.toNat - 0x80)) := h.2 _ hlow hhigh
    refine .inl ⟨rfl, _, ?_, by simp only [step, hb, if_true]; rfl⟩
    rw [toNat_ofNat_of_valid hwide.2]
    exact hwide.1
  | succ more =>
    have hsound : (Stage.inside (code * 64 + (b.toNat - 0x80)) more 0x80 0xBF).Sound :=
      ⟨by decide, h.2 _ hlow hhigh⟩
    exact .inr ⟨more, rfl, _, hsound, by simp only [step, hb, if_true]⟩

theorem Stage.Sound.step {stage : Stage} (h : stage.Sound) (b : UInt8) :
    (Utf8.step stage b).1.Sound := by
  cases stage with
  | ready => exact sound_start b
  | inside code more low high =>
    cases hb : (low ≤ b && b ≤ high) with
    | false =>
      rw [step_inside_afresh hb]
      exact sound_start b
    | true =>
      rcases h.step_within hb with ⟨-, c, -, hstep⟩ | ⟨_, -, _, hsound, hstep⟩
      · rw [hstep]
        exact sound_ready
      · rw [hstep]
        exact hsound

/-! ## Before a byte that continues no character -/

theorem decodeFrom_append_cons {stage : Stage} (h : stage.Sound) (bytes : Bytes) {b : UInt8}
    (hb : isContinuation b = false) (rest : Bytes) :
    decodeFrom stage (bytes ++ b :: rest) = decodeFrom stage bytes ++ decode (b :: rest) := by
  induction bytes generalizing stage with
  | nil =>
    cases stage with
    | ready => rfl
    | inside code more low high =>
      have hout : (low ≤ b && b ≤ high) = false :=
        Bool.eq_false_iff.mpr fun hin => ne_true_of_eq_false hb (h.isContinuation hin)
      rw [List.nil_append, decodeFrom_cons, step_inside_afresh hout]
      rfl
  | cons first bytes ih =>
    rw [List.cons_append, decodeFrom_cons, decodeFrom_cons, ih (h.step first), List.append_assoc]

/-- **A byte that continues no character begins afresh**, whatever the bytes before it have begun.
-/
theorem decode_append_cons (bytes : Bytes) {b : UInt8} (hb : isContinuation b = false)
    (rest : Bytes) : decode (bytes ++ b :: rest) = decode bytes ++ decode (b :: rest) :=
  decodeFrom_append_cons sound_ready bytes hb rest

theorem start_ascii {b : UInt8} (hb : b < 0x80) : start b = (.ready, [Char.ofNat b.toNat]) := by
  rw [start, if_pos hb]

theorem decode_ascii_cons {b : UInt8} (hb : b < 0x80) (rest : Bytes) :
    decode (b :: rest) = Char.ofNat b.toNat :: decode rest := by
  rw [decode, decodeFrom_cons, Utf8.step, start_ascii hb]
  rfl

theorem decode_append_ascii (bytes : Bytes) {b : UInt8} (hb : b < 0x80) (rest : Bytes) :
    decode (bytes ++ b :: rest) = decode bytes ++ Char.ofNat b.toNat :: decode rest := by
  have hnot : isContinuation b = false := by
    rw [← Bool.not_eq_true, isContinuation_iff]
    have hlt : b.toNat < 0x80 := hb
    omega
  rw [decode_append_cons bytes hnot, decode_ascii_cons hb]


/-! ## Behind bytes that cut no character off -/

/-- The stage behind some bytes. -/
def stageAfter (stage : Stage) (bytes : Bytes) : Stage :=
  bytes.foldl (fun stage b => (step stage b).1) stage

theorem decodeFrom_append_of_ready {stage : Stage} {bytes : Bytes}
    (h : stageAfter stage bytes = .ready) (rest : Bytes) :
    decodeFrom stage (bytes ++ rest) = decodeFrom stage bytes ++ decode rest := by
  induction bytes generalizing stage with
  | nil =>
    rw [show stage = .ready from h]
    rfl
  | cons b bytes ih =>
    have hrest : stageAfter (step stage b).1 bytes = .ready := h
    rw [List.cons_append, decodeFrom_cons, decodeFrom_cons, ih hrest, List.append_assoc]

/-- A first byte announces how many bytes more its stage waits for. -/
theorem start_inside {b : UInt8} {code more : Nat} {low high : UInt8}
    (h : (start b).1 = .inside code more low high) :
    isContinuation b = false ∧ announcedSize b = more + 2 := by
  have hlt : b.toNat < 256 := b.toNat_lt
  rw [← Bool.not_eq_true, isContinuation_iff, announcedSize_eq]
  rw [show b = UInt8.ofNat b.toNat from UInt8.ofNat_toNat.symm, start_ofNat hlt] at h
  generalize b.toNat = n at h ⊢
  repeat' split at h
  all_goals simp only [Stage.inside.injEq, reduceCtorEq] at h
  all_goals
    refine ⟨by omega, ?_⟩
    repeat' split
    all_goals omega

/-- Inside a character, the bytes behind its first one are known: they are continuation bytes, and
with those that are waited for they are as many as it announced. If the character was begun before
these bytes, they are all of that kind. -/
theorem exists_first {stage : Stage} {bytes : Bytes} {code more : Nat} {low high : UInt8}
    (hsound : stage.Sound) (h : stageAfter stage bytes = .inside code more low high) :
    (∃ earlier first tail, bytes = earlier ++ first :: tail ∧ isContinuation first = false ∧
        (∀ b ∈ tail, isContinuation b = true) ∧ tail.length + more + 2 = announcedSize first) ∨
      ∃ code' more' low' high', stage = .inside code' more' low' high' ∧
        (∀ b ∈ bytes, isContinuation b = true) ∧ bytes.length + more = more' := by
  induction bytes generalizing stage with
  | nil => exact .inr ⟨code, more, low, high, h, nofun, Nat.zero_add more⟩
  | cons b bytes ih =>
    rcases ih (hsound.step b) h with
      ⟨earlier, first, tail, rfl, hfirst, htail, hsize⟩ | ⟨code', more', low', high', hstep, hall, hlen⟩
    · exact .inl ⟨b :: earlier, first, tail, rfl, hfirst, htail, hsize⟩
    · have hbegun : (start b).1 = .inside code' more' low' high' →
          ∃ earlier first tail, b :: bytes = earlier ++ first :: tail ∧
            isContinuation first = false ∧ (∀ b ∈ tail, isContinuation b = true) ∧
            tail.length + more + 2 = announcedSize first := by
        intro hstart
        obtain ⟨hfirst, hsize⟩ := start_inside hstart
        exact ⟨[], b, bytes, rfl, hfirst, hall, by rw [hlen, hsize]⟩
      cases stage with
      | ready => exact .inl (hbegun hstep)
      | inside code₀ more₀ low₀ high₀ =>
        cases hb : (low₀ ≤ b && b ≤ high₀) with
        | false =>
          rw [step_inside_afresh hb] at hstep
          exact .inl (hbegun hstep)
        | true =>
          rcases hsound.step_within hb with ⟨-, c, -, hready⟩ | ⟨more₁, rfl, code₁, -, hgoes⟩
          · rw [hready] at hstep
            cases hstep
          · rw [hgoes] at hstep
            cases hstep
            refine .inr ⟨code₀, _, low₀, high₀, rfl, ?_, ?_⟩
            · exact List.forall_mem_cons.mpr ⟨hsound.isContinuation hb, hall⟩
            · rw [List.length_cons]
              omega

/-- What is found behind the last first byte: so many continuation bytes, too few for it. -/
theorem cutBehind_pos {reach seen : Nat} {bytes : Bytes} (h : 0 < cutBehind reach seen bytes) :
    ∃ tail first earlier, bytes = tail ++ first :: earlier ∧
      (∀ b ∈ tail, isContinuation b = true) ∧ isContinuation first = false ∧
      cutBehind reach seen bytes = seen + tail.length + 1 ∧
      cutBehind reach seen bytes < announcedSize first := by
  induction reach generalizing seen bytes with
  | zero => exact absurd h (by rw [cutBehind]; exact Nat.lt_irrefl 0)
  | succ reach ih =>
    cases bytes with
    | nil => exact absurd h (by rw [cutBehind]; exact Nat.lt_irrefl 0)
    | cons b bytes =>
      rw [cutBehind] at h ⊢
      cases hb : isContinuation b with
      | true =>
        rw [hb, if_pos rfl] at h
        obtain ⟨tail, first, earlier, rfl, htail, hfirst, hlen, hlt⟩ := ih h
        refine ⟨b :: tail, first, earlier, rfl, List.forall_mem_cons.mpr ⟨hb, htail⟩, hfirst, ?_, ?_⟩
        · rw [if_pos rfl, hlen, List.length_cons]
          omega
        · rw [if_pos rfl]
          exact hlt
      | false =>
        rw [hb, if_neg Bool.false_ne_true] at h
        rw [if_neg Bool.false_ne_true]
        by_cases hmore : seen + 1 < announcedSize b
        · rw [if_pos hmore]
          exact ⟨[], b, bytes, rfl, fun _ hmem => absurd hmem List.not_mem_nil, hb, rfl, hmore⟩
        · rw [if_neg hmore] at h
          exact absurd h (Nat.lt_irrefl 0)

/-- Bytes up to a place between two characters, and behind it the part of a character that the end
cuts off. The part is told by its first byte alone: it may be ill-formed, and is then cut off all the
same. -/
inductive CutOff : (whole part : Bytes) → Prop
  | nothing {whole : Bytes} (h : stageAfter .ready whole = .ready) : CutOff whole []
  | part {whole tail : Bytes} {first : UInt8} (hfirst : isContinuation first = false)
      (hsize : 1 < announcedSize first) (htail : ∀ b ∈ tail, isContinuation b = true) :
      CutOff whole (first :: tail)

/-- **The decoder stands between two characters where `cutCharacter` says.** -/
theorem exists_cutOff (bytes : Bytes) :
    ∃ whole part, bytes = whole ++ part ∧ cutCharacter bytes = part.length ∧ CutOff whole part := by
  rcases Nat.eq_zero_or_pos (cutCharacter bytes) with hzero | hpos
  · refine ⟨bytes, [], (List.append_nil _).symm, hzero, .nothing ?_⟩
    cases hstage : stageAfter .ready bytes with
    | ready => rfl
    | inside code more low high =>
      rcases exists_first sound_ready hstage with
        ⟨earlier, first, tail, rfl, hfirst, htail, hsize⟩ | ⟨_, _, _, _, hready, -, -⟩
      · rw [cutCharacter_append_cons earlier hfirst htail, if_pos (by omega)] at hzero
        exact absurd hzero (Nat.succ_ne_zero _)
      · cases hready
  · obtain ⟨tail, first, earlier, hrev, htail, hfirst, hlen, hlt⟩ := cutBehind_pos hpos
    have hbytes : bytes = earlier.reverse ++ first :: tail.reverse := by
      rw [← List.reverse_reverse bytes, hrev, List.reverse_append, List.reverse_cons,
        List.append_assoc]
      rfl
    refine ⟨earlier.reverse, first :: tail.reverse, hbytes, ?_, .part hfirst ?_ ?_⟩
    · rw [List.length_cons, List.length_reverse, cutCharacter, hlen, Nat.zero_add]
    · omega
    · exact fun b hb => htail b (List.mem_reverse.mp hb)

/-- What is cut off may wait for what follows. -/
theorem CutOff.decode_append {whole part : Bytes} (h : CutOff whole part) (next : Bytes) :
    decode (whole ++ (part ++ next)) = decode whole ++ decode (part ++ next) := by
  cases h with
  | nothing hready => exact decodeFrom_append_of_ready hready next
  | part hfirst _ _ => exact decode_append_cons whole hfirst _

/-- No byte of what is cut off is ASCII. -/
theorem CutOff.le_of_mem {whole part : Bytes} (h : CutOff whole part) {b : UInt8} (hb : b ∈ part) :
    0x80 ≤ b.toNat := by
  cases h with
  | nothing _ => exact absurd hb List.not_mem_nil
  | part hfirst hsize htail =>
    rcases List.mem_cons.mp hb with rfl | hb
    · rw [announcedSize_eq] at hsize
      split at hsize
      · exact absurd hsize (Nat.lt_irrefl 1)
      · omega
    · exact ((isContinuation_iff b).mp (htail b hb)).1

/-! ## Bytes below 0x80 -/

/-- A byte below 0x80 is a character; any other begins one, or is a replacement by itself. -/
theorem start_cases (b : UInt8) :
    (b < 0x80 ∧ start b = (.ready, [Char.ofNat b.toNat])) ∨
      (0x80 ≤ b.toNat ∧ (start b = (.ready, [replacement]) ∨
        ∃ code more low high, start b = (.inside code more low high, []))) := by
  by_cases hb : b < 0x80
  · exact .inl ⟨hb, start_ascii hb⟩
  · refine .inr ⟨Nat.le_of_not_lt hb, ?_⟩
    rw [start, if_neg hb]
    repeat' split
    all_goals first
      | exact .inl rfl
      | exact .inr ⟨_, _, _, _, rfl⟩

/-- The characters that a byte completes are beyond ASCII, unless one is the byte's own. -/
theorem Stage.Sound.mem_step {stage : Stage} (h : stage.Sound) {b : UInt8} {c : Char}
    (hc : c ∈ (Utf8.step stage b).2) (hascii : c.toNat < 0x80) : c = Char.ofNat b.toNat := by
  have hreplacement : c ≠ replacement := by
    rintro rfl
    exact absurd hascii (by decide)
  have hstart (hc : c ∈ (start b).2) : c = Char.ofNat b.toNat := by
    rcases start_cases b with ⟨-, hown⟩ | ⟨-, halone | ⟨_, _, _, _, hbegun⟩⟩
    · rw [hown] at hc
      exact List.mem_singleton.mp hc
    · rw [halone] at hc
      exact absurd (List.mem_singleton.mp hc) hreplacement
    · rw [hbegun] at hc
      exact absurd hc List.not_mem_nil
  cases stage with
  | ready => exact hstart hc
  | inside code more low high =>
    cases hb : (low ≤ b && b ≤ high) with
    | false =>
      rw [step_inside_afresh hb] at hc
      exact hstart ((List.mem_cons.mp hc).resolve_left hreplacement)
    | true =>
      rcases h.step_within hb with ⟨-, wide, hwide, hstep⟩ | ⟨_, -, _, -, hstep⟩
      · rw [hstep] at hc
        rw [List.mem_singleton.mp hc] at hascii
        exact absurd hascii (Nat.not_lt.mpr hwide)
      · rw [hstep] at hc
        exact absurd hc List.not_mem_nil

theorem toNat_ofNat_byte (b : UInt8) : (Char.ofNat b.toNat).toNat = b.toNat :=
  toNat_ofNat_of_valid (.inl (Nat.lt_trans b.toNat_lt (by decide)))

theorem mem_of_mem_decodeFrom {stage : Stage} (h : stage.Sound) {bytes : Bytes} {c : Char}
    (hc : c ∈ decodeFrom stage bytes) (hascii : c.toNat < 0x80) :
    UInt8.ofNat c.toNat ∈ bytes := by
  induction bytes generalizing stage with
  | nil =>
    cases stage with
    | ready => exact absurd hc List.not_mem_nil
    | inside code more low high =>
      rw [List.mem_singleton.mp hc] at hascii
      exact absurd hascii (by decide)
  | cons b bytes ih =>
    rw [decodeFrom_cons] at hc
    rcases List.mem_append.mp hc with hc | hc
    · rw [h.mem_step hc hascii, toNat_ofNat_byte, UInt8.ofNat_toNat]
      exact List.mem_cons_self
    · exact List.mem_cons_of_mem _ (ih (h.step b) hc)

/-- **A character below 0x80 is decoded exactly where its byte stands.** -/
theorem mem_decode_iff {bytes : Bytes} {b : UInt8} (hb : b < 0x80) :
    Char.ofNat b.toNat ∈ decode bytes ↔ b ∈ bytes := by
  constructor
  · intro hc
    have hmem := mem_of_mem_decodeFrom sound_ready hc (by rw [toNat_ofNat_byte]; exact hb)
    rwa [toNat_ofNat_byte, UInt8.ofNat_toNat] at hmem
  · intro hmem
    obtain ⟨before, behind, rfl⟩ := List.append_of_mem hmem
    rw [decode_append_ascii before hb]
    exact List.mem_append_right _ List.mem_cons_self

/-- Bytes beyond ASCII decode to characters beyond ASCII. -/
theorem le_of_mem_decode {bytes : Bytes} (h : ∀ b ∈ bytes, 0x80 ≤ b.toNat) {c : Char}
    (hc : c ∈ decode bytes) : 0x80 ≤ c.toNat := by
  refine Nat.le_of_not_lt fun hascii => ?_
  have hle := h _ (mem_of_mem_decodeFrom sound_ready hc hascii)
  rw [toNat_ofNat_of_lt (Nat.lt_trans hascii (by decide))] at hle
  exact absurd hascii (Nat.not_lt.mpr hle)

/-- The character that is being read is one beyond ASCII, or a replacement. -/
theorem decodeFrom_inside {code more : Nat} {low high : UInt8}
    (h : (Stage.inside code more low high).Sound) (bytes : Bytes) :
    ∃ c rest, decodeFrom (.inside code more low high) bytes = c :: rest ∧ 0x80 ≤ c.toNat := by
  have hreplacement : 0x80 ≤ replacement.toNat := by decide
  induction bytes generalizing code more low high with
  | nil => exact ⟨replacement, [], rfl, hreplacement⟩
  | cons b bytes ih =>
    rw [decodeFrom_cons]
    cases hb : (low ≤ b && b ≤ high) with
    | false =>
      rw [step_inside_afresh hb]
      exact ⟨replacement, _, rfl, hreplacement⟩
    | true =>
      rcases h.step_within hb with ⟨-, c, hwide, hstep⟩ | ⟨more', -, code', hsound, hstep⟩
      · rw [hstep]
        exact ⟨c, _, rfl, hwide⟩
      · rw [hstep]
        exact ih hsound

theorem decode_cons_wide {b : UInt8} (hb : 0x80 ≤ b.toNat) (bytes : Bytes) :
    ∃ c rest, decode (b :: bytes) = c :: rest ∧ 0x80 ≤ c.toNat := by
  rw [decode, decodeFrom_cons, Utf8.step]
  rcases start_cases b with ⟨hlt, -⟩ | ⟨-, halone | ⟨code, more, low, high, hbegun⟩⟩
  · exact absurd hlt (Nat.not_lt.mpr hb)
  · rw [halone]
    exact ⟨replacement, _, rfl, by decide⟩
  · have hsound := sound_start b
    rw [hbegun] at hsound ⊢
    exact decodeFrom_inside hsound bytes

theorem decode_cons_ne_nil (b : UInt8) (bytes : Bytes) : decode (b :: bytes) ≠ [] := by
  by_cases hb : b < 0x80
  · rw [decode_ascii_cons hb]
    exact List.cons_ne_nil _ _
  · obtain ⟨c, rest, hdecode, -⟩ := decode_cons_wide (Nat.le_of_not_lt hb) bytes
    rw [hdecode]
    exact List.cons_ne_nil _ _

/-- A character below 0x80 comes first only if its byte does. -/
theorem exists_cons_of_ascii {bytes : Bytes} {c : Char} {rest : List Char}
    (h : decode bytes = c :: rest) (hc : c.toNat < 0x80) :
    ∃ behind, bytes = UInt8.ofNat c.toNat :: behind ∧ decode behind = rest := by
  cases bytes with
  | nil => cases h
  | cons b bytes =>
    by_cases hb : b < 0x80
    · rw [decode_ascii_cons hb] at h
      obtain ⟨rfl, hrest⟩ := List.cons_eq_cons.mp h
      exact ⟨bytes, by rw [toNat_ofNat_byte, UInt8.ofNat_toNat], hrest⟩
    · obtain ⟨wide, behind, hdecode, hwide⟩ := decode_cons_wide (Nat.le_of_not_lt hb) bytes
      rw [hdecode] at h
      rw [(List.cons_eq_cons.mp h).1] at hwide
      exact absurd hc (Nat.not_lt.mpr hwide)

/-- A text of characters below 0x80 is decoded from its own bytes only. -/
theorem eq_encode_of_ascii {bytes : Bytes} {text : List Char} (h : decode bytes = text)
    (hascii : ∀ c ∈ text, c.toNat < 0x80) : bytes = encode text := by
  induction text generalizing bytes with
  | nil =>
    cases bytes with
    | nil => rfl
    | cons b bytes => exact absurd h (decode_cons_ne_nil b bytes)
  | cons c text ih =>
    obtain ⟨hfirst, hrest⟩ := List.forall_mem_cons.mp hascii
    obtain ⟨behind, rfl, hbehind⟩ := exists_cons_of_ascii h hfirst
    rw [encode_cons, encodeChar_of_ascii hfirst, ih hbehind hrest]
    rfl

/-! ## The pieces of a text -/

/-- Whether a piece begins inside a character. -/
def beginsInside (piece : Bytes) : Bool := piece.head?.any isContinuation

/-- How many characters begin in some bytes. -/
def begun (bytes : Bytes) : Nat := bytes.countP fun b => !isContinuation b

/-- How many characters a stage still owes for bytes already read. -/
def Stage.owes : Stage → Nat
  | .ready => 0
  | .inside .. => 1

theorem begun_append (bytes more : Bytes) : begun (bytes ++ more) = begun bytes + begun more :=
  List.countP_append

theorem begun_cons (b : UInt8) (bytes : Bytes) : begun (b :: bytes) = begun [b] + begun bytes :=
  begun_append [b] bytes

theorem begun_of_continuation {b : UInt8} (h : isContinuation b = true) : begun [b] = 0 := by
  rw [begun, List.countP_singleton, h]
  rfl

theorem begun_singleton_le (b : UInt8) : begun [b] ≤ 1 := List.countP_le_length

theorem start_owes (b : UInt8) : (start b).2.length + (start b).1.owes = 1 := by
  rcases start_cases b with ⟨-, h⟩ | ⟨-, h | ⟨_, _, _, _, h⟩⟩
  all_goals
    rw [h]
    rfl

/-- Each character begun is given sooner or later, if only as a replacement. -/
theorem Stage.Sound.owes_step {stage : Stage} (h : stage.Sound) (b : UInt8) :
    begun [b] + stage.owes ≤ (Utf8.step stage b).2.length + (Utf8.step stage b).1.owes := by
  have hstart := start_owes b
  have hle := begun_singleton_le b
  cases stage with
  | ready =>
    show begun [b] + 0 ≤ (start b).2.length + (start b).1.owes
    omega
  | inside code more low high =>
    show begun [b] + 1 ≤ _
    cases hb : (low ≤ b && b ≤ high) with
    | false =>
      rw [step_inside_afresh hb]
      show begun [b] + 1 ≤ (start b).2.length + 1 + (start b).1.owes
      omega
    | true =>
      rw [begun_of_continuation (h.isContinuation hb)]
      rcases h.step_within hb with ⟨-, _, -, hstep⟩ | ⟨_, -, _, -, hstep⟩
      all_goals
        rw [hstep]
        exact Nat.le_refl 1

theorem begun_le_length {stage : Stage} (h : stage.Sound) (bytes : Bytes) :
    begun bytes + stage.owes ≤ (decodeFrom stage bytes).length := by
  induction bytes generalizing stage with
  | nil => cases stage <;> exact Nat.le_refl _
  | cons b bytes ih =>
    have hstep := h.owes_step b
    have hrest := ih (h.step b)
    rw [decodeFrom_cons, List.length_append, begun_cons]
    omega

theorem decode_cons_continuation {b : UInt8} (h : isContinuation b = true) (bytes : Bytes) :
    decode (b :: bytes) = replacement :: decode bytes := by
  obtain ⟨hlow, hhigh⟩ := (isContinuation_iff b).mp h
  have hstart : start b = (.ready, [replacement]) := by
    rw [show b = UInt8.ofNat b.toNat from UInt8.ofNat_toNat.symm, start_ofNat b.toNat_lt,
      if_neg (by omega), if_pos (by omega)]
  rw [decode, decodeFrom_cons, Utf8.step, hstart]
  rfl

/-- A piece that begins inside a character gives a replacement for what it has of that one. -/
theorem begun_le_length_decode (piece : Bytes) :
    begun piece + (beginsInside piece).toNat ≤ (decode piece).length := by
  have hall := begun_le_length sound_ready
  cases hinside : beginsInside piece with
  | false => exact hall piece
  | true =>
    cases piece with
    | nil => cases hinside
    | cons b bytes =>
      rw [decode_cons_continuation hinside, begun_cons, begun_of_continuation hinside, Nat.zero_add,
        List.length_cons]
      exact Nat.succ_le_succ (hall bytes)

theorem begun_encode (text : List Char) : begun (encode text) = text.length := by
  induction text with
  | nil => rfl
  | cons c text ih =>
    obtain ⟨first, rest, he, -, hfirst, hrest, -⟩ := encodeChar_eq_cons c
    have hnone : begun rest = 0 := by
      refine List.countP_eq_zero.mpr fun b hb => ?_
      rw [hrest b hb]
      exact Bool.false_ne_true
    rw [encode_cons, he, begun_append, begun_cons, hnone, ih, begun, List.countP_singleton, hfirst]
    exact Nat.add_comm 1 _

/-- **At least one character more comes out for each cut inside a character.** -/
theorem length_le_pieces {text : List Char} {pieces : List Bytes}
    (h : pieces.flatten = encode text) :
    text.length + pieces.countP beginsInside ≤ (pieces.flatMap decode).length := by
  rw [← begun_encode, ← h]
  clear h
  induction pieces with
  | nil => exact Nat.le_refl 0
  | cons piece pieces ih =>
    have hpiece := begun_le_length_decode piece
    have hcount : [piece].countP beginsInside = (beginsInside piece).toNat := by
      rw [List.countP_singleton]
      cases beginsInside piece <;> rfl
    rw [List.flatten_cons, begun_append, List.flatMap_cons, List.length_append,
      show piece :: pieces = [piece] ++ pieces from rfl, List.countP_append, hcount]
    omega

/-- Pieces of which none begins inside a character are decoded apart, behind whatever bytes. -/
theorem decode_append_flatten {pieces : List Bytes}
    (h : ∀ piece ∈ pieces, beginsInside piece = false) (bytes : Bytes) :
    decode (bytes ++ pieces.flatten) = decode bytes ++ pieces.flatMap decode := by
  induction pieces generalizing bytes with
  | nil => rw [List.flatten_nil, List.append_nil, List.flatMap_nil, List.append_nil]
  | cons piece pieces ih =>
    obtain ⟨hpiece, hpieces⟩ := List.forall_mem_cons.mp h
    rw [List.flatten_cons, List.flatMap_cons, ← List.append_assoc, ih hpieces, ← List.append_assoc]
    congr 1
    cases piece with
    | nil => rw [List.append_nil]; exact (List.append_nil _).symm
    | cons b rest => exact decode_append_cons bytes hpiece rest

/-- **The pieces of a text give it back exactly if none begins inside a character.** -/
theorem flatMap_decode_eq_iff {text : List Char} {pieces : List Bytes}
    (h : pieces.flatten = encode text) :
    pieces.flatMap decode = text ↔ ∀ piece ∈ pieces, beginsInside piece = false := by
  constructor
  · intro heq
    have hle := length_le_pieces h
    rw [heq] at hle
    have hnone : pieces.countP beginsInside = 0 := by omega
    exact fun piece hpiece => Bool.eq_false_iff.mpr (List.countP_eq_zero.mp hnone piece hpiece)
  · intro hnone
    have hall := decode_append_flatten hnone []
    rw [List.nil_append, h, decode_encode] at hall
    exact hall.symm

end TerminalSession.Utf8
