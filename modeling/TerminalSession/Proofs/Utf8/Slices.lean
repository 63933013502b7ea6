import TerminalSession.Proofs.Utf8.Codec

/-!
# Places in a text, counted in bytes

A place in a text that is counted in bytes is one between two characters if some front of the text
takes so many bytes; there is one such front at most. Dropping and taking are just this
(`drop?_eq_some_iff`, `take?_eq_some_iff`), so what lies between two places is known by what stands
before it and behind it (`slice?_eq_some_iff`).
-/

set_option autoImplicit false

namespace TerminalSession.Utf8

@[simp] theorem size_nil : size [] = 0 := rfl

@[simp] theorem size_cons (c : Char) (text : List Char) :
    size (c :: text) = c.utf8Size + size text := rfl

/-! ## Dropping and taking -/

@[simp] theorem drop?_zero (text : List Char) : drop? 0 text = some text := by
  rw [drop?]

@[simp] theorem take?_zero (text : List Char) : take? 0 text = some [] := by
  rw [take?]

/-- A count that is not zero goes over the first character whole, or not at all. -/
theorem drop?_cons {count : Nat} (hcount : count ≠ 0) (c : Char) (text : List Char) :
    drop? count (c :: text) =
      if c.utf8Size ≤ count then drop? (count - c.utf8Size) text else none := by
  cases count with
  | zero => exact absurd rfl hcount
  | succ count => rw [drop?]

theorem take?_cons {count : Nat} (hcount : count ≠ 0) (c : Char) (text : List Char) :
    take? count (c :: text) =
      if c.utf8Size ≤ count then (take? (count - c.utf8Size) text).map (c :: ·) else none := by
  cases count with
  | zero => exact absurd rfl hcount
  | succ count => rw [take?]

/-- **Dropping drops a front of so many bytes.** -/
theorem drop?_eq_some_iff {count : Nat} {text rest : List Char} :
    drop? count text = some rest ↔ ∃ front, text = front ++ rest ∧ size front = count := by
  constructor
  · intro h
    fun_induction drop? count text with
    | case1 text => exact ⟨[], Option.some.inj h, rfl⟩
    | case2 => cases h
    | case3 count c text hfits ih =>
      obtain ⟨front, rfl, hsize⟩ := ih h
      refine ⟨c :: front, rfl, ?_⟩
      rw [size_cons, hsize]
      omega
    | case4 => cases h
  · rintro ⟨front, rfl, hsize⟩
    induction front generalizing count with
    | nil => rw [← hsize, size_nil, drop?_zero, List.nil_append]
    | cons c front ih =>
      have hpos := c.utf8Size_pos
      rw [size_cons] at hsize
      rw [List.cons_append, drop?_cons (by omega), if_pos (by omega)]
      exact ih (by omega)

/-- **Taking takes a front of so many bytes.** -/
theorem take?_eq_some_iff {count : Nat} {text front : List Char} :
    take? count text = some front ↔ (∃ rest, text = front ++ rest) ∧ size front = count := by
  constructor
  · intro h
    fun_induction take? count text generalizing front with
    | case1 text =>
      cases h
      exact ⟨⟨text, rfl⟩, rfl⟩
    | case2 => cases h
    | case3 count c text hfits ih =>
      obtain ⟨more, htake, rfl⟩ := Option.map_eq_some_iff.mp h
      obtain ⟨⟨rest, rfl⟩, hsize⟩ := ih htake
      refine ⟨⟨rest, rfl⟩, ?_⟩
      rw [size_cons, hsize]
      omega
    | case4 => cases h
  · rintro ⟨⟨rest, rfl⟩, hsize⟩
    induction front generalizing count with
    | nil => rw [← hsize, size_nil, take?_zero]
    | cons c front ih =>
      have hpos := c.utf8Size_pos
      rw [size_cons] at hsize
      rw [List.cons_append, take?_cons (by omega), if_pos (by omega), ih (by omega)]
      rfl

/-! ## Slices -/

/-- **What lies between two places** is what a front that ends at the one leaves and a front that
ends at the other has. -/
theorem slice?_eq_some_iff {text found : List Char} {start stop : Nat} (h : start ≤ stop) :
    slice? text start stop = some found ↔
      ∃ before after, text = before ++ found ++ after ∧ size before = start ∧
        size (before ++ found) = stop := by
  rw [slice?, Option.bind_eq_bind, Option.bind_eq_some_iff]
  constructor
  · rintro ⟨rest, hdrop, htake⟩
    obtain ⟨before, rfl, hbefore⟩ := drop?_eq_some_iff.mp hdrop
    obtain ⟨⟨after, rfl⟩, hfound⟩ := take?_eq_some_iff.mp htake
    refine ⟨before, after, (List.append_assoc _ _ _).symm, hbefore, ?_⟩
    rw [size_append, hbefore, hfound, Nat.add_sub_cancel' h]
  · rintro ⟨before, after, rfl, hbefore, hstop⟩
    rw [size_append, hbefore] at hstop
    refine ⟨found ++ after, ?_, ?_⟩
    · exact drop?_eq_some_iff.mpr ⟨before, List.append_assoc _ _ _, hbefore⟩
    · exact take?_eq_some_iff.mpr ⟨⟨after, rfl⟩, by omega⟩

end TerminalSession.Utf8
