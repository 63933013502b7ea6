import TerminalSession.Proofs.Transcript.Search
import TerminalSession.Proofs.Utf8.Parts

/-!
# Where a hit is in the bytes of a transcript

A search reads the bytes of a transcript as text and counts the bytes of that text. In the bytes
themselves a hit stands where the parts before it end (`FoundAt`), and the offset that is given for it
is further by what the damaged ones among them lack of the three bytes of a replacement. So the offset
is the place of the hit just if each of them has three bytes, and of a transcript that is UTF-8
throughout it always is (`search_place`).

Otherwise it need not be the place of anything: a stray byte before the hit suffices for it to lie
beyond the end (`search_place_stray`).
-/

set_option autoImplicit false

namespace TerminalSession.Transcript

open Utf8 (Part joined lacking)

/-- From a place on, within some bytes, they are read as something that matches a query. -/
def FoundAt (data : Bytes) (query : List Char) (place : Nat) : Prop :=
  place < data.length ∧ ∃ found rest, Utf8.decode (data.drop place) = found ++ rest ∧
    Text.lowerEach found = Text.lowerEach query

theorem foundAt_append {front behind : Bytes} {query found rest : List Char} (hquery : query ≠ [])
    (hread : Utf8.decode behind = found ++ rest)
    (hform : Text.lowerEach found = Text.lowerEach query) :
    FoundAt (front ++ behind) query front.length := by
  have hfound : found ≠ [] := by
    rintro rfl
    exact hquery (Text.lowerEach_eq_nil_iff.mp hform.symm)
  have hbehind : behind ≠ [] := by
    rintro rfl
    exact hfound (List.append_eq_nil_iff.mp hread.symm).1
  refine ⟨?_, found, rest, ?_, hform⟩
  · rw [List.length_append]
    exact Nat.lt_add_of_pos_right (List.length_pos_iff.mpr hbehind)
  · rw [List.drop_left, hread]

/-- **The offset of a hit is its place in the bytes, and what the parts before it lack.** So it is its
place just if they lack nothing; and if the bytes are UTF-8 throughout, the hit is found there. -/
theorem search_place {source : String} {data : Bytes} {query : List Char} {m : Match}
    (h : search source data query = .ok (some m)) :
    (∃ parts behind, data = joined parts ++ behind ∧
      Utf8.decode data = parts.map Part.char ++ Utf8.decode behind ∧
      FoundAt data query (joined parts).length ∧
      m.offset = (joined parts).length + lacking parts ∧
      (m.offset = (joined parts).length ↔ ∀ part ∈ parts, part.lack = 0)) ∧
    ∀ text, Utf8.decode? data = some text → FoundAt data query m.offset := by
  have hquery : query ≠ [] := by
    rintro rfl
    cases h
  obtain ⟨-, length, hmatch, -, -⟩ := search_eq_some hquery h
  obtain ⟨before, found, after, htext, hbefore, -, hform⟩ := matches_iff.mp hmatch
  rw [List.append_assoc] at htext
  refine ⟨?_, ?_⟩
  · obtain ⟨parts, behind, rfl, hparts, hbehind⟩ := Utf8.exists_parts htext
    have hoffset : m.offset = (joined parts).length + lacking parts := by
      rw [← hbefore, ← hparts, Utf8.size_chars]
    refine ⟨parts, behind, rfl, ?_, foundAt_append hquery hbehind hform, hoffset, ?_⟩
    · rw [hparts, hbehind, htext]
    · rw [hoffset, ← Utf8.lacking_eq_zero_iff, Nat.add_eq_left]
  · intro text hvalid
    obtain rfl := Utf8.decode?_eq_some_iff.mp hvalid
    rw [Utf8.decode_encode] at htext
    rw [htext, Utf8.encode_append, ← hbefore, ← Utf8.length_encode]
    exact foundAt_append hquery (Utf8.decode_encode _) hform

/-- The first two bytes of a euro sign take up three, as a replacement. -/
theorem search_place_euro :
    search "a" [0xE2, 0x82, 0x61] ['A'] = .ok (some ⟨"a", 3, "\uFFFDa"⟩) ∧
      ∃ parts behind, [0xE2, 0x82, 0x61] = joined parts ++ behind ∧
        FoundAt [0xE2, 0x82, 0x61] ['A'] (joined parts).length ∧
        3 = (joined parts).length + lacking parts := by
  have hsearch : search "a" [0xE2, 0x82, 0x61] ['A'] = .ok (some ⟨"a", 3, "\uFFFDa"⟩) := by
    rw [search_of_ne_nil (List.cons_ne_nil _ _), Except.ok.injEq]
    decide +kernel
  obtain ⟨⟨parts, behind, hdata, -, hfound, hoffset, -⟩, -⟩ := search_place hsearch
  exact ⟨hsearch, parts, behind, hdata, hfound, hoffset⟩

/-- Behind a stray byte a hit is said to be where the transcript has ended. -/
theorem search_place_stray :
    search "a" [0xFF, 0x61] ['a'] = .ok (some ⟨"a", 3, "\uFFFDa"⟩) ∧
      FoundAt [0xFF, 0x61] ['a'] 1 ∧ ¬FoundAt [0xFF, 0x61] ['a'] 3 := by
  refine ⟨?_, ⟨by decide, ['a'], [], by decide +kernel, rfl⟩, ?_⟩
  · rw [search_of_ne_nil (List.cons_ne_nil _ _), Except.ok.injEq]
    decide +kernel
  · rintro ⟨hlt, -⟩
    exact absurd hlt (by decide)

end TerminalSession.Transcript
