import TerminalSession.Decimal

/-!
# Numerals are read as what was written

A written numeral holds decimal digits only, at least one, and no leading zero
(`isDigit_of_mem_write`, `write_ne_nil`, `head?_write`); an integer's may have a minus sign in front.
`read?_write` says that reading it gives the number back. What else is read as a number are its
numerals with zeros in front, and nothing more (`read?_eq_some_iff`). Nothing is said of letters as
digits, but for single ones.
-/

set_option autoImplicit false

namespace TerminalSession.Decimal

/-! ## Digits -/

theorem digitValue?_digitChar {d : Nat} (h : d < 16) : digitValue? 16 (digitChar d) = some d := by
  revert d
  decide

theorem digitValue?_ten {d : Nat} (h : d < 10) : digitValue? 10 (digitChar d) = some d := by
  revert d
  decide

theorem isDigit_digitChar {d : Nat} (h : d < 10) : isDigit (digitChar d) = true := by
  revert d
  decide

theorem digitChar_ne_zero {d : Nat} (h : d < 10) (hpos : d ≠ 0) : digitChar d ≠ '0' := by
  revert d
  decide

theorem toNat_of_isDigit {c : Char} (h : isDigit c = true) : 0x30 ≤ c.toNat ∧ c.toNat ≤ 0x39 := by
  simp only [isDigit, Bool.and_eq_true, decide_eq_true_eq, Char.le_def,
    UInt32.le_iff_toNat_le] at h
  exact h

theorem digitValue?_eq_none {c : Char} (h : isDigit c = false) : digitValue? 10 c = none := by
  have hdigit : ¬ ('0' ≤ c && c ≤ '9') = true := ne_true_of_eq_false h
  rw [digitValue?, if_neg hdigit, if_neg]
  split
  · omega
  · split
    · omega
    · exact Nat.lt_irrefl 10

/-- In base ten only the ten digits have a value. -/
theorem eq_digitChar {c : Char} {d : Nat} (h : digitValue? 10 c = some d) :
    d < 10 ∧ c = digitChar d := by
  cases hc : isDigit c with
  | false => exact absurd ((digitValue?_eq_none hc).symm.trans h) (Option.some_ne_none d).symm
  | true =>
    obtain ⟨hlow, hhigh⟩ := toNat_of_isDigit hc
    have hdigit : ('0' ≤ c && c ≤ '9') = true := hc
    have hlt : c.toNat - 0x30 < 10 := by omega
    rw [digitValue?, if_pos hdigit, if_pos hlt] at h
    obtain rfl := Option.some.inj h
    refine ⟨hlt, ?_⟩
    rw [digitChar, if_pos hlt, Nat.sub_add_cancel hlow, Char.ofNat_toNat]

/-! ## What is written -/

theorem write_of_lt {n : Nat} (h : n < 10) : write n = [digitChar n] := by
  rw [write, if_pos h]

/-- Another digit is written behind the others. -/
theorem write_mul_add {n d : Nat} (hn : n ≠ 0) (hd : d < 10) :
    write (n * 10 + d) = write n ++ [digitChar d] := by
  have hdiv : (n * 10 + d) / 10 = n := by omega
  have hmod : (n * 10 + d) % 10 = d := by omega
  rw [write, if_neg (by omega), hdiv, hmod]

theorem write_ne_nil (n : Nat) : write n ≠ [] := by
  rw [write]
  split <;> simp

theorem isDigit_of_mem_write (n : Nat) : ∀ c ∈ write n, isDigit c = true := by
  induction n using Nat.strongRecOn with
  | ind n ih =>
    intro c hc
    rw [write] at hc
    split at hc
    next hsmall =>
      rw [List.mem_singleton.mp hc]
      exact isDigit_digitChar hsmall
    next hlarge =>
      rcases List.mem_append.mp hc with hc | hc
      · exact ih (n / 10) (by omega) c hc
      · rw [List.mem_singleton.mp hc]
        exact isDigit_digitChar (Nat.mod_lt n (by decide))

/-- Only zero is written with a zero in front. -/
theorem head?_write {n : Nat} (h : n ≠ 0) : (write n).head? ≠ some '0' := by
  induction n using Nat.strongRecOn with
  | ind n ih =>
    rw [write]
    split
    next hsmall =>
      intro hhead
      exact digitChar_ne_zero hsmall h (Option.some.inj hhead)
    next hlarge =>
      have hhead := ih (n / 10) (by omega) (by omega)
      cases hw : write (n / 10) with
      | nil => exact absurd hw (write_ne_nil _)
      | cons c digits => rwa [hw] at hhead

theorem write_zero : write 0 = ['0'] := write_of_lt (Nat.succ_pos 9)

/-! ## Integers -/

theorem writeInt_ne_nil (n : Int) : writeInt n ≠ [] := by
  cases n with
  | ofNat n => exact write_ne_nil n
  | negSucc n => exact List.cons_ne_nil _ _

theorem mem_writeInt {n : Int} {c : Char} (h : c ∈ writeInt n) : c = '-' ∨ isDigit c = true := by
  cases n with
  | ofNat n => exact .inr (isDigit_of_mem_write n c h)
  | negSucc n =>
    rcases List.mem_cons.mp h with rfl | h
    · exact .inl rfl
    · exact .inr (isDigit_of_mem_write (n + 1) c h)

theorem ne_of_mem_writeInt {n : Int} {c d : Char} (h : c ∈ writeInt n) (hd : isDigit d = false)
    (hminus : d ≠ '-') : c ≠ d := by
  rintro rfl
  rcases mem_writeInt h with h | h
  · exact hminus h
  · exact Bool.noConfusion (hd.symm.trans h)

/-- An integer's numeral holds nothing below the space. -/
theorem noControl_writeInt {n : Int} {c : Char} (h : c ∈ writeInt n) : 0x20 ≤ c.toNat := by
  rcases mem_writeInt h with rfl | h
  · decide
  · exact Nat.le_trans (by decide) (toNat_of_isDigit h).1

/-! ## Reading -/

theorem readFrom?_append (base n : Nat) (digits more : List Char) :
    readFrom? base n (digits ++ more) = (readFrom? base n digits).bind (readFrom? base · more) := by
  induction digits generalizing n with
  | nil => rfl
  | cons c digits ih =>
    rw [List.cons_append, readFrom?, readFrom?]
    cases digitValue? base c with
    | none => rfl
    | some d => exact ih (n * base + d)

theorem readFrom?_write (n : Nat) : readFrom? 10 0 (write n) = some n := by
  induction n using Nat.strongRecOn with
  | ind n ih =>
    rw [write]
    split
    next hsmall => simp [readFrom?, digitValue?_ten hsmall]
    next hlarge =>
      have hdigit := digitValue?_ten (Nat.mod_lt n (by decide))
      have hvalue : n / 10 * 10 + n % 10 = n := by omega
      rw [readFrom?_append, ih (n / 10) (by omega)]
      simp [readFrom?, hdigit, hvalue]

theorem read?_of_ne_nil {base : Nat} {digits : List Char} (h : digits ≠ []) :
    read? base digits = readFrom? base 0 digits := by
  cases digits with
  | nil => exact absurd rfl h
  | cons c digits => rfl

/-- **A numeral is read as the number it was written for.** -/
theorem read?_write (n : Nat) : read? 10 (write n) = some n := by
  rw [read?_of_ne_nil (write_ne_nil n), readFrom?_write]

/-! ## Zeros in front -/

theorem readFrom?_zeros (zeros : Nat) : readFrom? 10 0 (List.replicate zeros '0') = some 0 := by
  induction zeros with
  | zero => rfl
  | succ zeros ih => exact ih

/-- Behind a number that is not zero, digits are read as they are written. -/
theorem write_of_readFrom? {text : List Char} {m n : Nat} (hm : m ≠ 0)
    (h : readFrom? 10 m text = some n) : write n = write m ++ text := by
  induction text generalizing m with
  | nil => rw [← Option.some.inj h, List.append_nil]
  | cons c text ih =>
    obtain ⟨d, hd, hrest⟩ := Option.bind_eq_some_iff.mp h
    obtain ⟨hlt, rfl⟩ := eq_digitChar hd
    rw [ih (by omega) hrest, write_mul_add hm hlt, List.append_assoc, List.singleton_append]

theorem exists_zeros {text : List Char} {n : Nat} (hne : text ≠ [])
    (h : readFrom? 10 0 text = some n) :
    ∃ zeros, text = List.replicate zeros '0' ++ write n := by
  induction text with
  | nil => exact absurd rfl hne
  | cons c text ih =>
    obtain ⟨d, hd, hrest⟩ := Option.bind_eq_some_iff.mp h
    obtain ⟨hlt, rfl⟩ := eq_digitChar hd
    rw [Nat.zero_mul, Nat.zero_add] at hrest
    by_cases hzero : d = 0
    · subst hzero
      by_cases hend : text = []
      · -- The last of the zeros is the numeral.
        subst hend
        rw [← Option.some.inj hrest]
        exact ⟨0, write_zero.symm⟩
      · obtain ⟨zeros, htext⟩ := ih hend hrest
        refine ⟨zeros + 1, ?_⟩
        rw [List.replicate_succ, List.cons_append, ← htext]
        rfl
    · refine ⟨0, ?_⟩
      rw [write_of_readFrom? hzero hrest, write_of_lt hlt]
      rfl

/-- **What is read as a number is its numeral, perhaps with zeros in front.** -/
theorem read?_eq_some_iff {text : List Char} {n : Nat} :
    read? 10 text = some n ↔ ∃ zeros, text = List.replicate zeros '0' ++ write n := by
  constructor
  · intro h
    cases text with
    | nil => cases h
    | cons c text => exact exists_zeros (List.cons_ne_nil _ _) h
  · rintro ⟨zeros, rfl⟩
    have hne : List.replicate zeros '0' ++ write n ≠ [] :=
      List.append_ne_nil_of_right_ne_nil _ (write_ne_nil n)
    rw [read?_of_ne_nil hne, readFrom?_append, readFrom?_zeros, Option.bind_some, readFrom?_write]

end TerminalSession.Decimal
