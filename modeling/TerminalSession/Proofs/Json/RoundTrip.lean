import TerminalSession.Json.Reader
import TerminalSession.Json.Writer
import TerminalSession.Proofs.Decimal.Numeral

/-!
# JSON values are read as what was written

A value is `Faithful` if the reader takes its compact text off the front of any text that does not
go on as a numeral would, and if its text holds no control character, that is, none below the
space. Integers, texts and records of faithful values are faithful (`Faithful.ofInt`,
`Faithful.ofText`, `Faithful.ofFields`), so the values that programs build from these need no
argument of their own: `Faithful.read?_write` reads them back, and `int64?_ofInt`,
`string?_ofString` and `fields?_ofFields` take them apart again.

Escaped halves of surrogate pairs are left out: two of them side by side are read as one character.
-/

set_option autoImplicit false

namespace TerminalSession.Json

/-! ## Strings -/

theorem hex4?_hexEscape {code : Nat} (h : code < 0x10000) :
    hex4? (Decimal.digitChar (code / 4096 % 16)) (Decimal.digitChar (code / 256 % 16))
      (Decimal.digitChar (code / 16 % 16)) (Decimal.digitChar (code % 16)) = some code := by
  have hvalue : ((code / 4096 % 16 * 16 + code / 256 % 16) * 16 + code / 16 % 16) * 16 + code % 16
      = code := by omega
  have hdigit (n : Nat) : Decimal.digitValue? 16 (Decimal.digitChar (n % 16)) = some (n % 16) :=
    Decimal.digitValue?_digitChar (Nat.mod_lt n (by decide))
  simp [hex4?, Decimal.read?, Decimal.readFrom?, hdigit, hvalue]

theorem readSymbols?_hexEscape {code : Nat} (h : code < 0x10000) (rest : List Char) :
    readSymbols? (hexEscape code ++ rest) =
      (readSymbols? rest).map fun r => (joinUnit code r.1, r.2) := by
  simp only [hexEscape, List.cons_append, List.nil_append, readSymbols?, hex4?_hexEscape h]
  cases readSymbols? rest <;> rfl

/-- A code below the space is no half of a pair. -/
theorem joinUnit_of_lt {code : Nat} (h : code < 0x20) (more : List Symbol) :
    joinUnit code more = .char (Char.ofNat code) :: more := by
  have hhigh : isHighHalf code = false := by
    simp only [isHighHalf, Bool.and_eq_false_iff, decide_eq_false_iff_not]
    omega
  have hlow : isLowHalf code = false := by
    simp only [isLowHalf, Bool.and_eq_false_iff, decide_eq_false_iff_not]
    omega
  have hunit : unit code = .char (Char.ofNat code) := by simp [unit, hhigh, hlow]
  unfold joinUnit
  split
  · simp [hhigh, hunit]
  · rw [hunit]

theorem readSymbols?_short {e c : Char} (hu : e ≠ 'u') (h : shortEscape? e = some c)
    (rest : List Char) :
    readSymbols? ('\\' :: e :: rest) =
      (readSymbols? rest).map fun r => (.char c :: r.1, r.2) := by
  rw [readSymbols?]
  · rw [h]
    cases readSymbols? rest <;> rfl
  · intro a b c d more he
    exact absurd he hu

theorem readSymbols?_plain {c : Char} (hq : c ≠ '"') (hb : c ≠ '\\') (h : ¬ c.toNat < 0x20)
    (rest : List Char) :
    readSymbols? (c :: rest) = (readSymbols? rest).map fun r => (.char c :: r.1, r.2) := by
  rw [readSymbols?, if_neg hq, if_neg (by simp [hb, h])]
  · intro a b c' d more hc
    exact absurd hc hb
  · intro e more hc
    exact absurd hc hb

theorem readSymbols?_writeChar (c : Char) (rest : List Char) :
    readSymbols? (writeChar c ++ rest) =
      (readSymbols? rest).map fun r => (.char c :: r.1, r.2) := by
  have hcode {n : Nat} (h : c.toNat = n) : c = Char.ofNat n := by rw [← h, Char.ofNat_toNat]
  unfold writeChar
  split
  next h => rw [h]; exact readSymbols?_short (by decide) rfl rest
  next hq =>
    split
    next h => rw [h]; exact readSymbols?_short (by decide) rfl rest
    next hb =>
      split
      next hlow =>
        split
        next h => rw [hcode h]; exact readSymbols?_short (by decide) rfl rest
        split
        next h => rw [hcode h]; exact readSymbols?_short (by decide) rfl rest
        split
        next h => rw [hcode h]; exact readSymbols?_short (by decide) rfl rest
        split
        next h => rw [hcode h]; exact readSymbols?_short (by decide) rfl rest
        split
        next h => rw [hcode h]; exact readSymbols?_short (by decide) rfl rest
        rw [readSymbols?_hexEscape (by omega)]
        simp only [joinUnit_of_lt hlow, Char.ofNat_toNat]
      next hlow => exact readSymbols?_plain hq hb hlow rest

/-- **A text between quotes is read up to its closing quote.** -/
theorem readSymbols?_symbols (text rest : List Char) :
    readSymbols? ((symbols text).flatMap writeSymbol ++ '"' :: rest) =
      some (symbols text, rest) := by
  induction text with
  | nil => simp [symbols, readSymbols?]
  | cons c text ih =>
    have hcons : (symbols (c :: text)).flatMap writeSymbol =
        writeChar c ++ (symbols text).flatMap writeSymbol := rfl
    rw [hcons, List.append_assoc, readSymbols?_writeChar, ih]
    rfl

/-! ## Numerals -/

/-- The text does not go on as a numeral would. -/
def EndsNumeral (rest : List Char) : Prop :=
  ∀ c ∈ rest.head?, Decimal.isDigit c = false ∧ c ≠ '.' ∧ c ≠ 'e' ∧ c ≠ 'E'

theorem endsNumeral_nil : EndsNumeral [] := nofun

theorem endsNumeral_cons {c : Char} (h : c = ',' ∨ c = ']' ∨ c = '\x7d') (rest : List Char) :
    EndsNumeral (c :: rest) := by
  intro d hd
  obtain rfl : c = d := Option.some.inj hd
  rcases h with rfl | rfl | rfl <;> decide

theorem takeWhile_isDigit {digits rest : List Char} (h : ∀ c ∈ digits, Decimal.isDigit c = true)
    (hrest : EndsNumeral rest) : (digits ++ rest).takeWhile Decimal.isDigit = digits := by
  rw [List.takeWhile_append_of_pos h]
  cases rest with
  | nil => simp
  | cons c rest => simp [(hrest c rfl).1]

theorem readDigits?_write (n : Nat) {rest : List Char} (h : EndsNumeral rest) :
    readDigits? (Decimal.write n ++ rest) = some (Decimal.write n, rest) := by
  simp [readDigits?, takeWhile_isDigit (Decimal.isDigit_of_mem_write n) h,
    Decimal.write_ne_nil]

theorem readWhole?_write (n : Nat) {rest : List Char} (h : EndsNumeral rest) :
    readWhole? (Decimal.write n ++ rest) = some (Decimal.write n, rest) := by
  by_cases hn : n = 0
  · subst hn
    rw [Decimal.write_zero]
    cases rest with
    | nil => rfl
    | cons c rest => simp [readWhole?, (h c rfl).1]
  · have hhead := Decimal.head?_write hn
    rw [readWhole?.eq_def]
    split
    next c more heq =>
      cases hw : Decimal.write n with
      | nil => exact absurd hw (Decimal.write_ne_nil n)
      | cons d digits =>
        rw [hw] at hhead heq
        exact absurd (congrArg some (List.cons.inj heq).1) hhead
    next => exact readDigits?_write n h

theorem readUnsigned?_write (n : Nat) {rest : List Char} (h : EndsNumeral rest) :
    readUnsigned? (Decimal.write n ++ rest) = some (Decimal.write n, rest) := by
  have hfraction : readFraction? rest = some ([], rest) := by
    cases rest with
    | nil => rfl
    | cons c rest =>
      rw [readFraction?]
      intro more hcons
      exact (h c rfl).2.1 (List.cons.inj hcons).1
  have hexponent : readExponent? rest = some ([], rest) := by
    cases rest with
    | nil => rfl
    | cons c rest => simp [readExponent?, (h c rfl).2.2]
  simp [readUnsigned?, readWhole?_write n h, hfraction, hexponent]

theorem readNumber?_writeInt (n : Int) {rest : List Char} (h : EndsNumeral rest) :
    readNumber? (Decimal.writeInt n ++ rest) = some (Decimal.writeInt n, rest) := by
  cases n with
  | ofNat n =>
    rw [Decimal.writeInt, readNumber?, readUnsigned?_write n h]
    intro more hcons
    cases hw : Decimal.write n with
    | nil => exact Decimal.write_ne_nil n hw
    | cons c digits =>
      have hdigit := Decimal.isDigit_of_mem_write n c (by simp [hw])
      rw [hw] at hcons
      rw [(List.cons.inj hcons).1] at hdigit
      exact absurd hdigit (by decide)
  | negSucc n => simp [Decimal.writeInt, readNumber?, readUnsigned?_write (n + 1) h]

/-! ## Values -/

/-- A value is read as what was written, whatever follows that cannot belong to it. -/
structure Faithful (j : Json) : Prop where
  reads : ∀ (fuel : Nat) (rest : List Char), (write j).length < fuel → EndsNumeral rest →
    readValue? fuel (write j ++ rest) = some (j, rest)
  noControl : ∀ c ∈ write j, 0x20 ≤ c.toNat

theorem skipSpace_cons {c : Char} (h : isSpace c = false) (rest : List Char) :
    skipSpace (c :: rest) = c :: rest := by
  simp [skipSpace, h]

theorem noControl_hexEscape (code : Nat) : ∀ c ∈ hexEscape code, 0x20 ≤ c.toNat := by
  have hdigit : ∀ d < 16, 0x20 ≤ (Decimal.digitChar d).toNat := by decide
  have hmod (n : Nat) := hdigit (n % 16) (Nat.mod_lt n (by decide))
  simp [hexEscape, hmod]

theorem noControl_writeChar (c : Char) : ∀ d ∈ writeChar c, 0x20 ≤ d.toNat := by
  have hpair {e : Char} (he : 0x20 ≤ e.toNat) : ∀ d ∈ ['\\', e], 0x20 ≤ d.toNat := by
    intro d hd
    simp only [List.mem_cons, List.not_mem_nil, or_false] at hd
    rcases hd with rfl | rfl
    · decide
    · exact he
  unfold writeChar
  split
  · exact hpair (by decide)
  split
  · exact hpair (by decide)
  split
  next =>
    repeat (split; · exact hpair (by decide))
    exact noControl_hexEscape c.toNat
  next h => simpa using h

theorem noControl_writeString (text : List Char) :
    ∀ c ∈ writeString (symbols text), 0x20 ≤ c.toNat := by
  intro c hc
  simp only [writeString, symbols, List.flatMap_map, List.mem_cons, List.mem_append,
    List.mem_flatMap, List.not_mem_nil, or_false] at hc
  rcases hc with (rfl | ⟨d, -, hd⟩) | rfl
  · decide
  · exact noControl_writeChar d c hd
  · decide

theorem Faithful.ofText (text : List Char) : Faithful (.ofText text) := by
  refine ⟨?_, noControl_writeString text⟩
  intro fuel rest hfuel _
  cases fuel with
  | zero => exact absurd hfuel (Nat.not_lt_zero _)
  | succ fuel =>
    have htext : write (.ofText text) ++ rest =
        '"' :: ((symbols text).flatMap writeSymbol ++ '"' :: rest) := by
      simp [Json.ofText, write, writeString]
    rw [htext, readValue?, skipSpace_cons (by decide)]
    simp [readSymbols?_symbols, Json.ofText]

theorem Faithful.ofString (s : String) : Faithful (.ofString s) := .ofText s.toList

theorem readValue?_writeInt (n : Int) (fuel : Nat) {rest : List Char} (h : EndsNumeral rest) :
    readValue? (fuel + 1) (Decimal.writeInt n ++ rest) = some (.ofInt n, rest) := by
  have hread := readNumber?_writeInt n h
  cases hw : Decimal.writeInt n with
  | nil => exact absurd hw (Decimal.writeInt_ne_nil n)
  | cons c digits =>
    have hne {d : Char} (hd : Decimal.isDigit d = false) (hminus : d ≠ '-') : c ≠ d :=
      Decimal.ne_of_mem_writeInt (n := n) (by simp [hw]) hd hminus
    have hspace : isSpace c = false := by
      have h1 : c ≠ ' ' := hne rfl (by decide)
      have h2 : c ≠ '\t' := hne rfl (by decide)
      have h3 : c ≠ '\n' := hne rfl (by decide)
      have h4 : c ≠ '\r' := hne rfl (by decide)
      simp [isSpace, h1, h2, h3, h4]
    rw [List.cons_append, readValue?, skipSpace_cons hspace]
    simp only
    rw [if_neg (hne rfl (by decide)), if_neg (hne rfl (by decide)), if_neg (hne rfl (by decide)),
      if_neg (hne rfl (by decide)), if_neg (hne rfl (by decide)), if_neg (hne rfl (by decide)),
      ← List.cons_append, ← hw, hread]
    rfl

theorem Faithful.ofInt (n : Int) : Faithful (.ofInt n) := by
  refine ⟨?_, fun c hc => Decimal.noControl_writeInt hc⟩
  intro fuel rest hfuel hrest
  cases fuel with
  | zero => exact absurd hfuel (Nat.not_lt_zero _)
  | succ fuel => exact readValue?_writeInt n fuel hrest

/-! ## Records -/

/-- The text of a record's members, without the braces. -/
def writeFields (fields : List (String × Json)) : List Char :=
  commas (fields.map fun f => writeString (symbols f.1.toList) ++ ':' :: write f.2)

theorem write_ofFields (fields : List (String × Json)) :
    write (.ofFields fields) = '\x7b' :: writeFields fields ++ ['\x7d'] := by
  have hmembers : writeMembers (fields.map fun f => (symbols f.1.toList, f.2)) =
      fields.map fun f => writeString (symbols f.1.toList) ++ ':' :: write f.2 := by
    induction fields with
    | nil => rfl
    | cons f fields ih => simp [writeMembers, ih]
  rw [Json.ofFields, write, hmembers, writeFields]

/-- A member is read up to the comma that says there are more, or to the closing brace. -/
theorem readMembers?_member {value : Json} (h : Faithful value) (name : List Char) {fuel : Nat}
    (hfuel : (write value).length < fuel) {c : Char} (hc : c = ',' ∨ c = '\x7d')
    (rest : List Char) :
    readMembers? (fuel + 1) (writeString (symbols name) ++ ':' :: (write value ++ c :: rest)) =
      if c = ',' then
        (readMembers? fuel rest).map fun r => ((symbols name, value) :: r.1, r.2)
      else some ([(symbols name, value)], rest) := by
  have hends : EndsNumeral (c :: rest) := endsNumeral_cons (hc.imp_right .inr) rest
  have htext : writeString (symbols name) ++ ':' :: (write value ++ c :: rest) =
      '"' :: ((symbols name).flatMap writeSymbol ++ '"' :: ':' :: (write value ++ c :: rest)) := by
    simp [writeString]
  have hcolon : skipSpace (':' :: (write value ++ c :: rest)) = ':' :: (write value ++ c :: rest) :=
    skipSpace_cons (by decide) _
  have hskip : skipSpace (c :: rest) = c :: rest := by
    rcases hc with rfl | rfl <;> exact skipSpace_cons (by decide) rest
  rw [htext, readMembers?, skipSpace_cons (by decide)]
  rcases hc with rfl | rfl <;>
    simp [readSymbols?_symbols, hcolon, h.reads fuel _ hfuel hends, hskip]

theorem readMembers?_writeFields {fields : List (String × Json)}
    (h : ∀ f ∈ fields, Faithful f.2) (hne : fields ≠ []) {fuel : Nat}
    (hfuel : (writeFields fields).length < fuel) (rest : List Char) :
    readMembers? fuel (writeFields fields ++ '\x7d' :: rest) =
      some (fields.map fun f => (symbols f.1.toList, f.2), rest) := by
  induction fields generalizing fuel with
  | nil => exact absurd rfl hne
  | cons f fields ih =>
    obtain ⟨hf, hfields⟩ := List.forall_mem_cons.mp h
    cases fuel with
    | zero => exact absurd hfuel (Nat.not_lt_zero _)
    | succ fuel =>
      cases fields with
      | nil =>
        have hvalue : (write f.2).length < fuel := by
          simp only [writeFields, List.map_cons, List.map_nil, commas, List.length_append,
            List.length_cons] at hfuel
          omega
        have htext : writeFields [f] ++ '\x7d' :: rest =
            writeString (symbols f.1.toList) ++ ':' :: (write f.2 ++ '\x7d' :: rest) := by
          simp [writeFields, commas]
        rw [htext, readMembers?_member hf _ hvalue (.inr rfl) rest]
        rfl
      | cons g fields =>
        have htext (rest : List Char) : writeFields (f :: g :: fields) ++ rest =
            writeString (symbols f.1.toList) ++
              ':' :: (write f.2 ++ ',' :: (writeFields (g :: fields) ++ rest)) := by
          simp [writeFields, commas]
        have hlength := congrArg List.length (htext [])
        simp only [List.length_append, List.length_cons, List.append_nil] at hlength
        rw [htext, readMembers?_member hf _ (by omega) (.inl rfl)]
        have hothers : (writeFields (g :: fields)).length < fuel := by omega
        simp [ih hfields (List.cons_ne_nil _ _) hothers]

theorem mem_commas {c : Char} {texts : List (List Char)} (h : c ∈ commas texts) :
    c = ',' ∨ ∃ text ∈ texts, c ∈ text := by
  induction texts with
  | nil => exact absurd h List.not_mem_nil
  | cons text texts ih =>
    cases texts with
    | nil => exact .inr ⟨text, List.mem_singleton_self text, h⟩
    | cons other texts =>
      simp only [commas, List.mem_append, List.mem_cons] at h
      rcases h with h | h | h
      · exact .inr ⟨text, List.mem_cons_self, h⟩
      · exact .inl h
      · rcases ih h with h | ⟨found, hmem, h⟩
        · exact .inl h
        · exact .inr ⟨found, List.mem_cons_of_mem _ hmem, h⟩

theorem noControl_writeFields {fields : List (String × Json)} (h : ∀ f ∈ fields, Faithful f.2)
    {c : Char} (hc : c ∈ writeFields fields) : 0x20 ≤ c.toNat := by
  rcases mem_commas hc with rfl | ⟨text, htext, hc⟩
  · decide
  · obtain ⟨f, hf, rfl⟩ := List.mem_map.mp htext
    rcases List.mem_append.mp hc with hc | hc
    · exact noControl_writeString _ c hc
    · rcases List.mem_cons.mp hc with rfl | hc
      · decide
      · exact (h f hf).noControl c hc

theorem Faithful.ofFields {fields : List (String × Json)} (h : ∀ f ∈ fields, Faithful f.2) :
    Faithful (.ofFields fields) := by
  refine ⟨?_, ?_⟩
  · intro fuel rest hfuel _
    cases fuel with
    | zero => exact absurd hfuel (Nat.not_lt_zero _)
    | succ fuel =>
      have htext : write (.ofFields fields) ++ rest =
          '\x7b' :: (writeFields fields ++ '\x7d' :: rest) := by
        simp [write_ofFields]
      rw [write_ofFields] at hfuel
      rw [htext, readValue?, skipSpace_cons (by decide)]
      cases fields with
      | nil => rfl
      | cons f fields =>
        have hfields : (writeFields (f :: fields)).length < fuel := by
          simp only [List.cons_append, List.length_cons, List.length_append] at hfuel
          omega
        have hread := readMembers?_writeFields h (List.cons_ne_nil _ _) hfields rest
        have hquote : ∃ more, writeFields (f :: fields) = '"' :: more := by
          cases fields <;> simp [writeFields, commas, writeString]
        obtain ⟨more, hmore⟩ := hquote
        rw [hmore, List.cons_append] at hread
        rw [hmore, List.cons_append]
        simp [skipSpace_cons (c := '"') (by decide), hread, Json.ofFields]
  · intro c hc
    rw [write_ofFields] at hc
    simp only [List.cons_append, List.mem_cons, List.mem_append, List.not_mem_nil, or_false] at hc
    rcases hc with rfl | hc | rfl
    · decide
    · exact noControl_writeFields h hc
    · decide

/-- **A faithful value is read back from its text.** -/
theorem Faithful.read?_write {j : Json} (h : Faithful j) : read? (write j) = some j := by
  have hread := h.reads (2 * (write j).length + 1) [] (by omega) endsNumeral_nil
  rw [List.append_nil] at hread
  simp [read?, hread, skipSpace]

/-! ## Values taken apart -/

@[simp] theorem plain?_symbols (text : List Char) : plain? (symbols text) = some text := by
  induction text with
  | nil => rfl
  | cons c text ih =>
    have hcons : plain? (symbols (c :: text)) = (plain? (symbols text)).map (c :: ·) := rfl
    rw [hcons, ih]
    rfl

@[simp] theorem string?_ofString (s : String) : (ofString s).string? = some s := by
  simp [Json.ofString, ofText, string?, text?]

@[simp] theorem int?_ofInt (n : Int) : (ofInt n).int? = some n := by
  cases n with
  | ofNat n =>
    rw [ofInt, Decimal.writeInt, int?, Decimal.read?_write]
    · rfl
    · intro digits hcons
      have hmem : '-' ∈ Decimal.write n := by simp [hcons]
      exact absurd (Decimal.isDigit_of_mem_write n '-' hmem) (by decide)
  | negSucc n =>
    rw [ofInt, Decimal.writeInt, int?, Decimal.read?_write]
    rfl

theorem int64?_ofInt {n : Int} (h : Decimal.isInt64 n = true) : (ofInt n).int64? = some n := by
  simp [int64?, Option.filter, h]

theorem case?_ofString (s : String) : (ofString s).case? = some s.toList := plain?_symbols s.toList

theorem named_eq_nil {members : List (List Char × Json)} {name : List Char}
    (h : ∀ m ∈ members, m.1 ≠ name) : named name members = [] := by
  have hnone : members.filter (·.1 = name) = [] := by
    apply List.filter_eq_nil_iff.mpr
    intro m hm heq
    exact h m hm (of_decide_eq_true heq)
  rw [named, hnone, List.map_nil]

theorem named_of_mem {members : List (List Char × Json)} (h : (members.map (·.1)).Nodup)
    {name : List Char} {value : Json} (hmem : (name, value) ∈ members) :
    named name members = [value] := by
  induction members with
  | nil => exact absurd hmem List.not_mem_nil
  | cons m members ih =>
    obtain ⟨hm, hrest⟩ := List.nodup_cons.mp h
    rcases List.mem_cons.mp hmem with rfl | hmem
    · have hothers : named name members = [] := by
        apply named_eq_nil
        rintro other hother rfl
        exact hm (List.mem_map.mpr ⟨other, hother, rfl⟩)
      have hcons : named name ((name, value) :: members) = value :: named name members := by
        simp [named]
      rw [hcons, hothers]
    · have hne : m.1 ≠ name := by
        rintro rfl
        exact hm (List.mem_map.mpr ⟨_, hmem, rfl⟩)
      rw [named, List.filter_cons_of_neg (by simpa using hne)]
      exact ih hrest hmem

theorem mapM_eq_some {α β : Type} {f : α → Option β} {g : α → β} {xs : List α}
    (h : ∀ x ∈ xs, f x = some (g x)) : xs.mapM f = some (xs.map g) := by
  induction xs with
  | nil => rfl
  | cons x xs ih =>
    obtain ⟨hx, hxs⟩ := List.forall_mem_cons.mp h
    simp [List.mapM_cons, hx, ih hxs]

/-- **A record is taken apart into the values of its fields**, in whatever order they stand and
whatever other members stand between them. -/
theorem fields?_of_perm {fields others members : List (String × Json)}
    (hfields : (fields.map (·.1)).Nodup) (hothers : ∀ o ∈ others, o.1 ∉ fields.map (·.1))
    (h : members.Perm (fields ++ others)) :
    (ofFields members).fields? (fields.map (·.1)) = some (fields.map (·.2)) := by
  have hnames : ((fields.map fun f => (f.1.toList, f.2)).map (·.1)).Nodup := by
    have hmap := List.Pairwise.map (S := (· ≠ ·)) String.toList
      (fun _ _ hne heq => hne (String.toList_inj.mp heq)) hfields
    simpa [List.Nodup, Function.comp_def] using hmap
  have hmembers : (members.map fun f => (symbols f.1.toList, f.2)).mapM
      (fun m => (plain? m.1).map (·, m.2)) = some (members.map fun f => (f.1.toList, f.2)) := by
    rw [List.mapM_map]
    exact mapM_eq_some fun f _ => by simp
  rw [ofFields, fields?, hmembers, Option.bind_eq_bind, Option.bind_some, List.mapM_map]
  apply mapM_eq_some
  intro f hf
  have hfound := named_of_mem hnames (List.mem_map_of_mem (f := fun f => (f.1.toList, f.2)) hf)
  have hnone : named f.1.toList (others.map fun o => (o.1.toList, o.2)) = [] := by
    apply named_eq_nil
    rintro _ hm heq
    obtain ⟨o, ho, rfl⟩ := List.mem_map.mp hm
    have hname : o.1 = f.1 := String.toList_inj.mp heq
    exact hothers o ho (List.mem_map.mpr ⟨f, hf, hname.symm⟩)
  have hperm : (named f.1.toList (members.map fun f => (f.1.toList, f.2))).Perm [f.2] := by
    have happend := (h.map fun f => (f.1.toList, f.2)).filter (·.1 = f.1.toList)
    have hnamed := happend.map (·.2)
    rw [List.map_append, List.filter_append, List.map_append] at hnamed
    rw [named] at hfound hnone
    rwa [hfound, hnone, List.append_nil] at hnamed
  simp [List.perm_singleton.mp hperm]

/-- Written as they are, differently named fields are taken apart. -/
theorem fields?_ofFields {fields : List (String × Json)} (h : (fields.map (·.1)).Nodup) :
    (ofFields fields).fields? (fields.map (·.1)) = some (fields.map (·.2)) := by
  have hself : fields.Perm (fields ++ []) := by rw [List.append_nil]
  exact fields?_of_perm h (fun _ ho => absurd ho List.not_mem_nil) hself

end TerminalSession.Json
