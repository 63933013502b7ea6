import TerminalSession.Proofs.Utf8.Slices
import TerminalSession.Transcript.Search

/-!
# A search finds the first match there is

A text matches a query at a place if what stands there has the lower-case form of the query, taken
character by character (`Matches`). The search does not lower-case the text. It goes over it and
over the sought form side by side, each character taking from the sought form what its own
lower-case form is, and one character takes two there. So the two advance at different rates, and a
match that would have to end inside the form of a character is none.

- From one place on, the measuring of a match is exact: it finds those texts in front, and only
  those, whose form is the sought one (`matchLength?_eq_some_iff`), and there is one at most.
- Over all places, those before the one that is found have none (`findFrom_eq_some`), and if none
  is found then no place has one (`findFrom_eq_none`).

## What this does NOT decide

The final form of a capital sigma is not looked for: a search compares characters without regard to
what stands around them, on either side.
-/

set_option autoImplicit false

namespace TerminalSession

namespace Text

/-- Every character has a lower-case form. -/
theorem lowerChar_ne_nil (c : Char) : lowerChar c ≠ [] := by
  rw [lowerChar]
  split
  next => exact List.cons_ne_nil _ _
  next => split <;> exact List.cons_ne_nil _ _

theorem lowerEach_nil : lowerEach [] = [] := rfl

theorem lowerEach_cons (c : Char) (text : List Char) :
    lowerEach (c :: text) = lowerChar c ++ lowerEach text := rfl

theorem lowerEach_eq_nil_iff {text : List Char} : lowerEach text = [] ↔ text = [] := by
  constructor
  · intro h
    cases text with
    | nil => rfl
    | cons c text => exact absurd (List.append_eq_nil_iff.mp h).1 (lowerChar_ne_nil c)
  · rintro rfl
    exact lowerEach_nil

end Text

namespace Transcript

/-! ## Measuring a match -/

theorem dropFront?_eq_some_iff {front text rest : List Char} :
    dropFront? front text = some rest ↔ text = front ++ rest := by
  induction front generalizing text with
  | nil => rw [dropFront?, Option.some.injEq, List.nil_append]
  | cons a front ih =>
    cases text with
    | nil =>
      rw [dropFront?]
      constructor <;> exact nofun
    | cons b text =>
      rw [dropFront?, List.cons_append, List.cons.injEq]
      by_cases hab : a = b
      · rw [if_pos hab, ih]
        exact ⟨fun h => ⟨hab.symm, h⟩, And.right⟩
      · rw [if_neg hab]
        exact ⟨nofun, fun h => absurd h.1.symm hab⟩

/-- The first character takes its lower-case form from what is sought; the rest of the text has to
match what that leaves, if it leaves anything. -/
theorem matchLength?_cons (more : List Char) (c : Char) (text : List Char) :
    matchLength? (Text.lowerChar c ++ more) (c :: text) =
      if more = [] then some c.utf8Size else (matchLength? more text).map (c.utf8Size + ·) := by
  have hdrop : dropFront? (Text.lowerChar c) (Text.lowerChar c ++ more) = some more :=
    dropFront?_eq_some_iff.mpr rfl
  rw [matchLength?, hdrop]
  cases more with
  | nil => rfl
  | cons a more => rfl

/-- Whatever stands in front and has the sought form is measured. -/
theorem matchLength?_append {found : List Char} (hfound : found ≠ []) (rest : List Char) :
    matchLength? (Text.lowerEach found) (found ++ rest) = some (Utf8.size found) := by
  induction found with
  | nil => exact absurd rfl hfound
  | cons c found ih =>
    rw [Text.lowerEach_cons, List.cons_append, matchLength?_cons]
    by_cases hlast : found = []
    · subst hlast
      rw [if_pos Text.lowerEach_nil]
      rfl
    · rw [if_neg (mt Text.lowerEach_eq_nil_iff.mp hlast), ih hlast]
      rfl

/-- And what is measured has the sought form. -/
theorem exists_of_matchLength? {sought text : List Char} {length : Nat}
    (h : matchLength? sought text = some length) :
    ∃ found rest, text = found ++ rest ∧ Text.lowerEach found = sought ∧
      Utf8.size found = length := by
  fun_induction matchLength? sought text generalizing length with
  | case1 => cases h
  | case2 => cases h
  | case3 sought c text hdrop =>
    obtain rfl := dropFront?_eq_some_iff.mp hdrop
    exact ⟨[c], text, rfl, rfl, Option.some.inj h⟩
  | case4 sought c text more _ hdrop ih =>
    obtain rfl := dropFront?_eq_some_iff.mp hdrop
    obtain ⟨length, hlength, rfl⟩ := Option.map_eq_some_iff.mp h
    obtain ⟨found, rest, rfl, rfl, rfl⟩ := ih hlength
    exact ⟨c :: found, rest, rfl, rfl, rfl⟩

/-- **Measuring is exact**: what is measured stands in front and has the sought form, and whatever
does is measured. -/
theorem matchLength?_eq_some_iff {sought text : List Char} {length : Nat} (hsought : sought ≠ []) :
    matchLength? sought text = some length ↔
      ∃ found rest, text = found ++ rest ∧ Text.lowerEach found = sought ∧
        Utf8.size found = length := by
  constructor
  · exact exists_of_matchLength?
  · rintro ⟨found, rest, rfl, rfl, rfl⟩
    exact matchLength?_append (mt Text.lowerEach_eq_nil_iff.mpr hsought) rest

/-! ## Going over the places -/

theorem findFrom_eq_some {sought text : List Char} {offset start length : Nat}
    (h : findFrom sought offset text = some (start, length)) :
    ∃ before rest, text = before ++ rest ∧ start = offset + Utf8.size before ∧
      matchLength? sought rest = some length ∧
      ∀ front behind, text = front ++ behind → Utf8.size front < Utf8.size before →
        matchLength? sought behind = none := by
  fun_induction findFrom sought offset text with
  | case1 => cases h
  | case2 offset c text here hmatch =>
    cases h
    exact ⟨[], c :: text, rfl, rfl, hmatch, fun _ _ _ hlt => absurd hlt (Nat.not_lt_zero _)⟩
  | case3 offset c text hmatch ih =>
    obtain ⟨before, rest, rfl, rfl, hlength, hearlier⟩ := ih h
    refine ⟨c :: before, rest, rfl, Nat.add_assoc _ _ _, hlength, ?_⟩
    intro front behind htext hlt
    rcases List.cons_eq_append_iff.mp htext with ⟨rfl, rfl⟩ | ⟨front, rfl, hrest⟩
    · exact hmatch
    · exact hearlier front behind hrest (Nat.lt_of_add_lt_add_left hlt)

theorem findFrom_eq_none {sought text : List Char} {offset : Nat}
    (h : findFrom sought offset text = none) {before rest : List Char}
    (htext : text = before ++ rest) : matchLength? sought rest = none := by
  fun_induction findFrom sought offset text generalizing before with
  | case1 =>
    obtain ⟨-, rfl⟩ := List.append_eq_nil_iff.mp htext.symm
    rfl
  | case2 => cases h
  | case3 offset c text hmatch ih =>
    rcases List.cons_eq_append_iff.mp htext with ⟨rfl, rfl⟩ | ⟨before, rfl, hrest⟩
    · exact hmatch
    · exact ih h hrest

/-! ## Matches of a query -/

/-- What stands at a place of a text, so many bytes long, has the lower-case form of a query. It has
to begin and end between characters, as otherwise nothing stands there. -/
def Matches (text query : List Char) (start length : Nat) : Prop :=
  ∃ found, Utf8.slice? text start (start + length) = some found ∧
    Text.lowerEach found = Text.lowerEach query

theorem matches_iff {text query : List Char} {start length : Nat} :
    Matches text query start length ↔
      ∃ before found after, text = before ++ found ++ after ∧ Utf8.size before = start ∧
        Utf8.size found = length ∧ Text.lowerEach found = Text.lowerEach query := by
  constructor
  · rintro ⟨found, hslice, hform⟩
    obtain ⟨before, after, htext, hbefore, hstop⟩ :=
      (Utf8.slice?_eq_some_iff (Nat.le_add_right start length)).mp hslice
    rw [Utf8.size_append, hbefore] at hstop
    exact ⟨before, found, after, htext, hbefore, Nat.add_left_cancel hstop, hform⟩
  · rintro ⟨before, found, after, htext, rfl, rfl, hform⟩
    refine ⟨found, ?_, hform⟩
    exact (Utf8.slice?_eq_some_iff (Nat.le_add_right _ _)).mpr
      ⟨before, after, htext, rfl, Utf8.size_append before found⟩

/-- A match is what is measured from its place on. -/
theorem matches_iff_matchLength? {text query : List Char} (hquery : query ≠ [])
    {start length : Nat} :
    Matches text query start length ↔
      ∃ before rest, text = before ++ rest ∧ Utf8.size before = start ∧
        matchLength? (Text.lowerEach query) rest = some length := by
  have hsought : Text.lowerEach query ≠ [] := mt Text.lowerEach_eq_nil_iff.mp hquery
  rw [matches_iff]
  constructor
  · rintro ⟨before, found, after, rfl, hbefore, hfound, hform⟩
    refine ⟨before, found ++ after, List.append_assoc _ _ _, hbefore, ?_⟩
    exact (matchLength?_eq_some_iff hsought).mpr ⟨found, after, rfl, hform, hfound⟩
  · rintro ⟨before, rest, rfl, hbefore, hlength⟩
    obtain ⟨found, after, rfl, hform, hfound⟩ := (matchLength?_eq_some_iff hsought).mp hlength
    exact ⟨before, found, after, (List.append_assoc _ _ _).symm, hbefore, hfound, hform⟩

/-- At one place there is one match at most. -/
theorem Matches.unique {text query : List Char} (hquery : query ≠ []) {start length other : Nat}
    (h : Matches text query start length) (h' : Matches text query start other) :
    length = other := by
  obtain ⟨before, rest, htext, hbefore, hlength⟩ := (matches_iff_matchLength? hquery).mp h
  obtain ⟨before', rest', htext', hbefore', hother⟩ := (matches_iff_matchLength? hquery).mp h'
  have hrest : Utf8.drop? start text = some rest :=
    Utf8.drop?_eq_some_iff.mpr ⟨before, htext, hbefore⟩
  have hrest' : Utf8.drop? start text = some rest' :=
    Utf8.drop?_eq_some_iff.mpr ⟨before', htext', hbefore'⟩
  obtain rfl : rest = rest' := Option.some.inj (hrest.symm.trans hrest')
  exact Option.some.inj (hlength.symm.trans hother)

/-- What the search finds is a match, and there is none before it. -/
theorem first_of_find {text query : List Char} (hquery : query ≠ []) {start length : Nat}
    (h : find text query = some (start, length)) :
    Matches text query start length ∧
      ∀ start' length', Matches text query start' length' → start ≤ start' := by
  obtain ⟨before, rest, htext, rfl, hlength, hearlier⟩ := findFrom_eq_some h
  rw [Nat.zero_add]
  refine ⟨?_, ?_⟩
  · exact (matches_iff_matchLength? hquery).mpr ⟨before, rest, htext, rfl, hlength⟩
  · intro start' length' hmatch
    obtain ⟨front, behind, htext', rfl, hlength'⟩ := (matches_iff_matchLength? hquery).mp hmatch
    apply Nat.le_of_not_lt
    intro hlt
    have hnone := hearlier front behind htext' hlt
    rw [hlength'] at hnone
    cases hnone

/-- If the search finds nothing, no place has a match. -/
theorem not_matches_of_find {text query : List Char} (hquery : query ≠ [])
    (h : find text query = none) (start length : Nat) : ¬Matches text query start length := by
  intro hmatch
  obtain ⟨before, rest, htext, -, hlength⟩ := (matches_iff_matchLength? hquery).mp hmatch
  have hnone := findFrom_eq_none h htext
  rw [hlength] at hnone
  cases hnone

/-- **A search finds the first match and misses none.** For a query that is not empty:

- it finds just the match before which there is no other;
- it finds nothing just if there is no match at any place;
- no two matches begin at the same place, so what it finds is all there is to find there. -/
theorem find_leftmost {text query : List Char} (hquery : query ≠ []) :
    (∀ start length, find text query = some (start, length) ↔
      Matches text query start length ∧
        ∀ start' length', Matches text query start' length' → start ≤ start') ∧
    (find text query = none ↔ ∀ start length, ¬Matches text query start length) ∧
    ∀ start length length', Matches text query start length →
      Matches text query start length' → length = length' := by
  refine ⟨?_, ?_, fun _ _ _ h h' => h.unique hquery h'⟩
  · intro start length
    refine ⟨first_of_find hquery, ?_⟩
    rintro ⟨hmatch, hfirst⟩
    cases hfind : find text query with
    | none => exact absurd hmatch (not_matches_of_find hquery hfind start length)
    | some place =>
      obtain ⟨start', length'⟩ := place
      obtain ⟨hmatch', hfirst'⟩ := first_of_find hquery hfind
      obtain rfl : start = start' :=
        Nat.le_antisymm (hfirst start' length' hmatch') (hfirst' start length hmatch)
      rw [hmatch.unique hquery hmatch']
  · refine ⟨not_matches_of_find hquery, ?_⟩
    intro hnone
    cases hfind : find text query with
    | none => rfl
    | some place => exact absurd (first_of_find hquery hfind).1 (hnone place.1 place.2)

/-- The dotted capital, of two bytes, is found by a query with the two characters of its form. -/
theorem find_leftmost_dotted :
    ['i', Char.ofNat 0x307, 'y'] ≠ [] ∧
      find ['x', Char.ofNat 0x130, 'Y'] ['i', Char.ofNat 0x307, 'y'] = some (1, 3) ∧
      Matches ['x', Char.ofNat 0x130, 'Y'] ['i', Char.ofNat 0x307, 'y'] 1 3 ∧
      ∀ start length,
        Matches ['x', Char.ofNat 0x130, 'Y'] ['i', Char.ofNat 0x307, 'y'] start length →
          1 ≤ start := by
  have hquery : ['i', Char.ofNat 0x307, 'y'] ≠ [] := List.cons_ne_nil _ _
  have hfind : find ['x', Char.ofNat 0x130, 'Y'] ['i', Char.ofNat 0x307, 'y'] = some (1, 3) := by
    decide +kernel
  exact ⟨hquery, hfind, ((find_leftmost hquery).1 1 3).mp hfind⟩

/-- But not by one that ends between them. -/
example : find [Char.ofNat 0x130] ['i'] = none := by decide +kernel

/-! ## Searching a stored transcript -/

variable {source : String} {data : Bytes} {query : List Char}

/-- A search of a transcript fails for an empty query only. -/
theorem search_of_ne_nil (hquery : query ≠ []) :
    search source data query = .ok (firstMatch source data query) := by
  rw [search, if_neg (mt List.isEmpty_iff.mp hquery)]

/-- **What a search shows of a transcript** is the first match in its text: no other begins before
the offset, and the snippet is taken around all of it. -/
theorem search_eq_some (hquery : query ≠ []) {m : Match}
    (h : search source data query = .ok (some m)) :
    m.source = source ∧ ∃ length, Matches (Utf8.decode data) query m.offset length ∧
      (∀ start' length', Matches (Utf8.decode data) query start' length' → m.offset ≤ start') ∧
      m.snippet =
        String.ofList (snippet (Utf8.decode data) m.offset length searchContext) := by
  rw [search_of_ne_nil hquery, Except.ok.injEq] at h
  obtain ⟨⟨start, length⟩, hfind, rfl⟩ := Option.map_eq_some_iff.mp h
  obtain ⟨hmatch, hfirst⟩ := first_of_find hquery hfind
  exact ⟨rfl, length, hmatch, hfirst, rfl⟩

/-- And if it shows none, there is none. -/
theorem search_eq_none (hquery : query ≠ []) (h : search source data query = .ok none)
    (start length : Nat) : ¬Matches (Utf8.decode data) query start length := by
  rw [search_of_ne_nil hquery, Except.ok.injEq] at h
  exact not_matches_of_find hquery (Option.map_eq_none_iff.mp h) start length

end Transcript

end TerminalSession
