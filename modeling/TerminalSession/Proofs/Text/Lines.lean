import TerminalSession.Text.Lines

/-!
# Laws of lines

The last lines of a text are its longest end with fewer than so many line feeds: an end of the text
(`lastLines_suffix`), with few enough line feeds (`count_lastLines_lt`), of which every other such
end is an end (`suffix_lastLines`).

Lines that hold no line feed and do not end in a carriage return, each written with a line feed
behind it, are read back as they were (`lines_flatMap`). Of any text the lines up to a line feed and
those behind it are the lines of the whole (`lines_append`). What is joined by a separator comes
apart again, if there is something to be joined and no part holds the separator
(`pieces_intercalate`).
-/

set_option autoImplicit false

namespace TerminalSession.Text

/-! ## The last lines -/

theorem takeLines_prefix (n : Nat) (text : List Char) : takeLines n text <+: text := by
  induction text generalizing n with
  | nil => cases n <;> exact List.prefix_refl _
  | cons c text ih =>
    cases n with
    | zero => exact List.nil_prefix
    | succ n =>
      rw [takeLines]
      split
      · split
        · exact List.nil_prefix
        · exact List.cons_prefix_cons.mpr ⟨rfl, ih n⟩
      · exact List.cons_prefix_cons.mpr ⟨rfl, ih (n + 1)⟩

theorem count_takeLines_lt {n : Nat} (h : 0 < n) (text : List Char) :
    (takeLines n text).count '\n' < n := by
  induction text generalizing n with
  | nil =>
    cases n with
    | zero => exact absurd h (Nat.lt_irrefl 0)
    | succ n => exact h
  | cons c text ih =>
    cases n with
    | zero => exact absurd h (Nat.lt_irrefl 0)
    | succ n =>
      rw [takeLines]
      by_cases hc : c = '\n'
      · by_cases hn : n = 0
        · simp [hc, hn]
        · have hlt := ih (Nat.pos_of_ne_zero hn)
          simp [hc, hn, hlt]
      · have hlt := ih h
        simp [hc, hlt]

theorem prefix_takeLines {n : Nat} {text other : List Char} (h : other <+: text)
    (hcount : other.count '\n' < n) : other <+: takeLines n text := by
  induction text generalizing n other with
  | nil =>
    rw [List.prefix_nil.mp h]
    exact List.nil_prefix
  | cons c text ih =>
    cases other with
    | nil => exact List.nil_prefix
    | cons d other =>
      obtain ⟨rfl, hprefix⟩ := List.cons_prefix_cons.mp h
      cases n with
      | zero => exact absurd hcount (Nat.not_lt_zero _)
      | succ n =>
        rw [takeLines]
        by_cases hd : d = '\n'
        · subst hd
          rw [List.count_cons_self] at hcount
          have hlt : other.count '\n' < n := by omega
          have hn : n ≠ 0 := by omega
          simp only [hn, if_true, if_false]
          exact List.cons_prefix_cons.mpr ⟨rfl, ih hprefix hlt⟩
        · rw [List.count_cons_of_ne hd] at hcount
          rw [if_neg hd]
          exact List.cons_prefix_cons.mpr ⟨rfl, ih hprefix hcount⟩

theorem lastLines_suffix (text : List Char) (n : Nat) : lastLines text n <:+ text := by
  have h := takeLines_prefix n text.reverse
  rw [lastLines, ← List.reverse_prefix, List.reverse_reverse]
  exact h

theorem count_lastLines_lt (text : List Char) {n : Nat} (h : 0 < n) :
    (lastLines text n).count '\n' < n := by
  rw [lastLines, List.count_reverse]
  exact count_takeLines_lt h _

/-- Every other end with few enough line feeds is an end of the last lines. -/
theorem suffix_lastLines {n : Nat} {text other : List Char} (h : other <:+ text)
    (hcount : other.count '\n' < n) : other <:+ lastLines text n := by
  rw [lastLines, ← List.reverse_prefix, List.reverse_reverse]
  exact prefix_takeLines (List.reverse_prefix.mpr h) (by rwa [List.count_reverse])

theorem lastLines_zero (text : List Char) : lastLines text 0 = [] := by
  rw [lastLines, takeLines, List.reverse_nil]

/-- What holds no line feed stands on the last line with what is there already. -/
theorem lastLines_append {more : List Char} (h : '\n' ∉ more) {n : Nat} (hn : 0 < n)
    (text : List Char) : lastLines (text ++ more) n = lastLines text n ++ more := by
  have htake {front : List Char} (h : '\n' ∉ front) (text : List Char) :
      takeLines n (front ++ text) = front ++ takeLines n text := by
    cases n with
    | zero => exact absurd hn (Nat.lt_irrefl 0)
    | succ n =>
      induction front with
      | nil => rfl
      | cons c front ih =>
        obtain ⟨hc, hfront⟩ := List.ne_and_not_mem_of_not_mem_cons h
        rw [List.cons_append, takeLines, if_neg hc.symm, ih hfront, List.cons_append]
  have hreverse : '\n' ∉ more.reverse := mt List.mem_reverse.mp h
  rw [lastLines, List.reverse_append, htake hreverse, List.reverse_append, List.reverse_reverse,
    lastLines]

/-- A line feed ends a line, and one line less is shown of what stands before it. -/
theorem lastLines_append_lineFeed (text : List Char) (n : Nat) :
    lastLines (text ++ ['\n']) (n + 1) = if n = 0 then [] else lastLines text n ++ ['\n'] := by
  rw [lastLines, List.reverse_concat, takeLines, if_pos rfl]
  split
  · rfl
  · rw [List.reverse_cons, lastLines]

/-! ## Lines written and read -/

theorem pieces_ne_nil (sep : Char) (text : List Char) : pieces sep text ≠ [] := by
  cases text with
  | nil => simp [pieces]
  | cons c text =>
    rw [pieces]
    split
    · simp
    · split <;> simp

/-- A piece ends where the separator first comes. -/
theorem pieces_append_cons {sep : Char} {piece : List Char} (h : sep ∉ piece) (text : List Char) :
    pieces sep (piece ++ sep :: text) = piece :: pieces sep text := by
  induction piece with
  | nil => simp [pieces]
  | cons c piece ih =>
    obtain ⟨hc, hpiece⟩ := List.ne_and_not_mem_of_not_mem_cons h
    rw [List.cons_append, pieces, if_neg hc.symm, ih hpiece]

/-- No piece holds the separator. -/
theorem not_mem_of_mem_pieces {sep : Char} {text piece : List Char}
    (h : piece ∈ pieces sep text) : sep ∉ piece := by
  induction text generalizing piece with
  | nil =>
    rw [pieces, List.mem_singleton] at h
    exact h ▸ List.not_mem_nil
  | cons c text ih =>
    rw [pieces] at h
    split at h
    next =>
      rcases List.mem_cons.mp h with rfl | h
      · exact List.not_mem_nil
      · exact ih h
    next hc =>
      cases hpieces : pieces sep text with
      | nil => exact absurd hpieces (pieces_ne_nil sep text)
      | cons first others =>
        rw [hpieces] at h ih
        rcases List.mem_cons.mp h with rfl | h
        · exact List.not_mem_cons_of_ne_of_not_mem (Ne.symm hc) (ih List.mem_cons_self)
        · exact ih (List.mem_cons_of_mem _ h)

theorem dropCarriageReturn_eq_self {line : List Char} (h : line.getLast? ≠ some '\r') :
    dropCarriageReturn line = line := by
  induction line with
  | nil => rfl
  | cons c line ih =>
    cases line with
    | nil =>
      have hc : c ≠ '\r' := fun hc => h (by rw [hc]; rfl)
      rw [dropCarriageReturn]
      · rfl
      · intro hcr
        exact absurd hcr hc
    | cons d line =>
      rw [dropCarriageReturn, ih (by rwa [List.getLast?_cons_cons] at h)]
      simp

/-- A line is read up to its line feed. -/
theorem lines_append_cons {line : List Char} (h : '\n' ∉ line) (hend : line.getLast? ≠ some '\r')
    (text : List Char) : lines (line ++ '\n' :: text) = line :: lines text := by
  rw [lines, pieces_append_cons h, lines]
  cases hp : pieces '\n' text with
  | nil => exact absurd hp (pieces_ne_nil '\n' text)
  | cons piece others => rw [linesOfPieces, dropCarriageReturn_eq_self hend]; simp

/-- **Lines that are written are read back.** -/
theorem lines_flatMap {written : List (List Char)} (h : ∀ line ∈ written, '\n' ∉ line)
    (hend : ∀ line ∈ written, line.getLast? ≠ some '\r') :
    lines (written.flatMap (· ++ ['\n'])) = written := by
  induction written with
  | nil => rfl
  | cons line written ih =>
    obtain ⟨hline, hrest⟩ := List.forall_mem_cons.mp h
    obtain ⟨hlast, hlasts⟩ := List.forall_mem_cons.mp hend
    rw [List.flatMap_cons, List.append_assoc, List.singleton_append,
      lines_append_cons hline hlast, ih hrest hlasts]

/-! ## Pieces joined -/

theorem pieces_of_not_mem {sep : Char} {piece : List Char} (h : sep ∉ piece) :
    pieces sep piece = [piece] := by
  induction piece with
  | nil => rfl
  | cons c piece ih =>
    obtain ⟨hc, hpiece⟩ := List.ne_and_not_mem_of_not_mem_cons h
    rw [pieces, if_neg hc.symm, ih hpiece]

theorem intercalate_cons (sep : Char) (part : List Char) {parts : List (List Char)}
    (h : parts ≠ []) :
    List.intercalate [sep] (part :: parts) = part ++ sep :: List.intercalate [sep] parts := by
  cases parts with
  | nil => exact absurd rfl h
  | cons next parts =>
    rw [List.intercalate_cons_cons, List.append_assoc, List.singleton_append]

/-- **What is joined by a separator comes apart at it.** -/
theorem pieces_intercalate {sep : Char} {parts : List (List Char)} (hne : parts ≠ [])
    (h : ∀ part ∈ parts, sep ∉ part) : pieces sep (List.intercalate [sep] parts) = parts := by
  induction parts with
  | nil => exact absurd rfl hne
  | cons part parts ih =>
    obtain ⟨hpart, hparts⟩ := List.forall_mem_cons.mp h
    by_cases hend : parts = []
    · subst hend
      rw [List.intercalate_singleton, pieces_of_not_mem hpart]
    · rw [intercalate_cons sep part hend, pieces_append_cons hpart, ih hend hparts]

/-! ## Lines joined -/

theorem pieces_append (sep : Char) (text more : List Char) :
    pieces sep (text ++ sep :: more) = pieces sep text ++ pieces sep more := by
  induction text with
  | nil => simp only [List.nil_append, pieces, if_true, List.singleton_append]
  | cons c text ih =>
    rw [List.cons_append, pieces, pieces, ih]
    split
    · rfl
    · cases hp : pieces sep text with
      | nil => exact absurd hp (pieces_ne_nil sep text)
      | cons piece others => rfl

/-- Pieces with others behind them were all ended by a line feed. -/
theorem linesOfPieces_append (before : List (List Char)) {behind : List (List Char)}
    (h : behind ≠ []) :
    linesOfPieces (before ++ behind) =
      before.map dropCarriageReturn ++ linesOfPieces behind := by
  induction before with
  | nil => rfl
  | cons piece before ih =>
    have hmore : before ++ behind ≠ [] := fun hnil => h (List.append_eq_nil_iff.mp hnil).2
    rw [List.cons_append, linesOfPieces, ih]
    · rfl
    · exact hmore

/-- **The lines of a text are those up to a line feed and those behind it.** -/
theorem lines_append (text more : List Char) :
    lines (text ++ '\n' :: more) =
      (pieces '\n' text).map dropCarriageReturn ++ lines more := by
  rw [lines, pieces_append, linesOfPieces_append _ (pieces_ne_nil '\n' more), lines]

end TerminalSession.Text
