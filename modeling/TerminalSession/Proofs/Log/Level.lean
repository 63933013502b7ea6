import TerminalSession.Log.Level
import TerminalSession.Proofs.Decimal.Numeral

/-!
# The spellings of a level

A user writes a level by its name, in upper and lower case as they like, or by its number, with
zeros in front and a plus sign before them if they like (`Level.Spelling`). These texts are read as
the level, and no others (`Level.ofText?_eq_some_iff`). The name as it is written for a level is one
of them (`Level.spelling_name`).

Blanks are not spoken of: whoever reads a level takes them off before.
-/

set_option autoImplicit false

namespace TerminalSession.Log

/-! ## Upper and lower case -/

theorem lowerLetter_eq_toLower : lowerLetter = Char.toLower := by
  funext c
  rw [lowerLetter]
  by_cases h : c.val ≥ 'A'.val ∧ c.val ≤ 'Z'.val
  · have hletter : ('A' ≤ c && c ≤ 'Z') = true := by simpa [Char.le_def] using h
    have hle : c.val.toNat ≤ 0x5A := UInt32.le_iff_toNat_le.mp h.2
    have hvalid : (c.toNat + 0x20).isValidChar := .inl (by rw [Char.toNat]; omega)
    have hlower : c.toLower.toNat = (c.val.toNat + 0x20) % UInt32.size :=
      (congrArg Char.toNat (dif_pos h)).trans (UInt32.toNat_add _ _)
    have hsmall : c.val.toNat + 0x20 < UInt32.size :=
      Nat.lt_of_le_of_lt (Nat.add_le_add_right hle 0x20) (by decide)
    rw [if_pos hletter, Char.ofNat, dif_pos hvalid]
    apply Char.toNat_inj.mp
    rw [hlower, Nat.mod_eq_of_lt hsmall]
    rfl
  · have hletter : ¬ ('A' ≤ c && c ≤ 'Z') = true := by simpa [Char.le_def] using h
    have hlower : c.toLower = c := dif_neg h
    rw [if_neg hletter, hlower]

theorem isNamed_iff {name : String} {text : List Char} :
    isNamed name text = true ↔ text.map Char.toLower = name.toList := by
  rw [isNamed, decide_eq_true_eq, lowerLetter_eq_toLower]

/-- Digits have no case. -/
theorem toLower_of_isDigit {c : Char} (h : Decimal.isDigit c = true) : c.toLower = c := by
  have hle : c.val.toNat ≤ 0x39 := (Decimal.toNat_of_isDigit h).2
  apply dif_neg
  intro hletter
  have hge : 0x41 ≤ c.val.toNat := UInt32.le_iff_toNat_le.mp hletter.1
  omega

/-! ## Numbers -/

theorem number?_of_not_plus {text : List Char} (h : text.head? ≠ some '+') :
    number? text = Decimal.read? 10 text := by
  rw [number?]
  rintro digits rfl
  exact h rfl

theorem isDigit_of_mem_zeros {zeros n : Nat} {c : Char}
    (h : c ∈ List.replicate zeros '0' ++ Decimal.write n) : Decimal.isDigit c = true := by
  rcases List.mem_append.mp h with h | h
  · rw [List.eq_of_mem_replicate h]
    rfl
  · exact Decimal.isDigit_of_mem_write n c h

/-- **A number is its numeral**, perhaps with zeros in front, and perhaps with a plus sign. -/
theorem number?_eq_some_iff {text : List Char} {n : Nat} :
    number? text = some n ↔
      ∃ zeros, text = List.replicate zeros '0' ++ Decimal.write n ∨
        text = '+' :: (List.replicate zeros '0' ++ Decimal.write n) := by
  by_cases hplus : text.head? = some '+'
  · obtain ⟨digits, rfl⟩ := List.head?_eq_some_iff.mp hplus
    have hnumber : number? ('+' :: digits) = Decimal.read? 10 digits := rfl
    rw [hnumber, Decimal.read?_eq_some_iff]
    constructor
    · rintro ⟨zeros, rfl⟩
      exact ⟨zeros, .inr rfl⟩
    · rintro ⟨zeros, h | h⟩
      · have hdigit : Decimal.isDigit '+' = true := isDigit_of_mem_zeros (h ▸ List.mem_cons_self)
        exact absurd hdigit (by decide)
      · exact ⟨zeros, (List.cons.inj h).2⟩
  · rw [number?_of_not_plus hplus, Decimal.read?_eq_some_iff]
    constructor
    · rintro ⟨zeros, rfl⟩
      exact ⟨zeros, .inl rfl⟩
    · rintro ⟨zeros, h | rfl⟩
      · exact ⟨zeros, h⟩
      · exact absurd rfl hplus

/-- What does not begin as a number is none. -/
theorem number?_eq_none {c : Char} (hplus : c ≠ '+') (hdigit : Decimal.isDigit c = false)
    (text : List Char) : number? (c :: text) = none := by
  have hhead : (c :: text).head? ≠ some '+' := fun h => hplus (Option.some.inj h)
  rw [number?_of_not_plus hhead, Decimal.read?_of_ne_nil (List.cons_ne_nil _ _),
    Decimal.readFrom?, Decimal.digitValue?_eq_none hdigit]
  rfl

namespace Level

/-! ## Levels -/

/-- The texts that a user may write for a level. -/
inductive Spelling (level : Level) : List Char → Prop where
  /-- Its name, in upper and lower case. -/
  | name {text : List Char} (h : text.map Char.toLower = level.name.toList) : Spelling level text
  /-- Its number. -/
  | number (zeros : Nat) :
    Spelling level (List.replicate zeros '0' ++ Decimal.write level.rank)
  /-- Its number with a plus sign. -/
  | signed (zeros : Nat) :
    Spelling level ('+' :: (List.replicate zeros '0' ++ Decimal.write level.rank))

theorem spelling_name (level : Level) : level.Spelling level.name.toList := by
  apply Spelling.name
  cases level <;> decide

theorem find?_rank (level : Level) : all.find? (·.rank = level.rank) = some level := by
  cases level <;> rfl

theorem find?_name (level : Level) :
    all.find? (fun other => decide (level.name.toList = other.name.toList)) = some level := by
  cases level <;> decide

/-- A name does not begin as a number does. -/
theorem exists_name (level : Level) :
    ∃ c rest, level.name.toList = c :: rest ∧ c ≠ '+' ∧ Decimal.isDigit c = false := by
  cases level <;> exact ⟨_, _, rfl, by decide, by decide⟩

theorem number?_of_named {level : Level} {text : List Char}
    (h : text.map Char.toLower = level.name.toList) : number? text = none := by
  obtain ⟨c, rest, hname, hplus, hdigit⟩ := exists_name level
  obtain ⟨d, text, rfl, rfl, -⟩ := List.map_eq_cons_iff.mp (h.trans hname)
  apply number?_eq_none
  · rintro rfl
    exact hplus rfl
  · -- A digit would stand in the name as it is.
    rw [Bool.eq_false_iff]
    intro hd
    rw [toLower_of_isDigit hd, hd] at hdigit
    cases hdigit

theorem ofText?_of_number {text : List Char} {n : Nat} (h : number? text = some n) :
    ofText? text = all.find? (·.rank = n) := by
  rw [ofText?, h]

theorem ofText?_of_no_number {text : List Char} (h : number? text = none) :
    ofText? text = all.find? fun level => isNamed level.name text := by
  rw [ofText?, h]

theorem Spelling.ofText?_eq {level : Level} {text : List Char} (h : level.Spelling text) :
    Level.ofText? text = some level := by
  cases h with
  | name h =>
    simp only [ofText?_of_no_number (number?_of_named h), isNamed, lowerLetter_eq_toLower, h,
      find?_name]
  | number zeros =>
    rw [ofText?_of_number (number?_eq_some_iff.mpr ⟨zeros, .inl rfl⟩), find?_rank]
  | signed zeros =>
    rw [ofText?_of_number (number?_eq_some_iff.mpr ⟨zeros, .inr rfl⟩), find?_rank]

/-- **A text is read as a level exactly if it is one of the level's spellings.** -/
theorem ofText?_eq_some_iff {level : Level} {text : List Char} :
    Level.ofText? text = some level ↔ level.Spelling text := by
  refine ⟨?_, Spelling.ofText?_eq⟩
  intro h
  cases hnumber : number? text with
  | some n =>
    rw [ofText?_of_number hnumber] at h
    have hfound := List.find?_some h
    obtain rfl : level.rank = n := of_decide_eq_true hfound
    obtain ⟨zeros, rfl | rfl⟩ := number?_eq_some_iff.mp hnumber
    · exact .number zeros
    · exact .signed zeros
  | none =>
    rw [ofText?_of_no_number hnumber] at h
    have hnamed := List.find?_some h
    exact .name (isNamed_iff.mp hnamed)

end Level

end TerminalSession.Log
