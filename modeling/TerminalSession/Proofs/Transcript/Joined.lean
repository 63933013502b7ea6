import TerminalSession.Proofs.Transcript.RoundTrip
import TerminalSession.Proofs.Utf8.Pieces

/-!
# Transcripts behind each other

What stands behind a line feed is read as if nothing stood before it, whatever bytes do: a character
that is cut off there does not reach over the line feed, and neither does a line. So a transcript is
read as its parts are, if it is cut at line feeds (`read_append_cons`), and a transcript that ends
with one can be added to (`read_append`). Its text is that of its parts (`text_append_cons`), and so
is the damage: a line that is no entry is missing where it stands, and its neighbours are read
(`parts_apart`).

Without a line feed between them the last line of the one and the first of the other are one line.
-/

set_option autoImplicit false

namespace TerminalSession.Text

theorem dropCarriageReturn_cases (line : List Char) :
    dropCarriageReturn line = line ∨ line = dropCarriageReturn line ++ ['\r'] := by
  by_cases h : line.getLast? = some '\r'
  · right
    obtain ⟨front, rfl⟩ := List.getLast?_eq_some_iff.mp h
    congr 1
    induction front with
    | nil => rfl
    | cons c front ih =>
      have hlast : (front ++ ['\r']).getLast? = some '\r' := List.getLast?_concat
      rw [List.cons_append, dropCarriageReturn, ← ih hlast]
      intro _ hnil
      exact absurd (List.append_eq_nil_iff.mp hnil).2 (List.cons_ne_nil _ _)
  · exact .inl (dropCarriageReturn_eq_self h)

theorem trim_dropCarriageReturn (line : List Char) :
    trim (dropCarriageReturn line) = trim line := by
  rcases dropCarriageReturn_cases line with h | h
  · rw [h]
  · exact (trim_append_singleton (by decide) _).symm.trans (congrArg trim h.symm)

/-- Trimmed, and without those that hold nothing, it does not matter whether the last of the pieces
is ended by a line feed. -/
theorem filter_trim_linesOfPieces (parts : List (List Char)) :
    ((linesOfPieces parts).map trim).filter (!·.isEmpty) =
      ((parts.map dropCarriageReturn).map trim).filter (!·.isEmpty) := by
  induction parts with
  | nil => rfl
  | cons piece parts ih =>
    cases parts with
    | nil =>
      cases piece with
      | nil => rfl
      | cons c piece =>
        simp only [linesOfPieces, List.isEmpty_cons, Bool.false_eq_true, if_false, List.map_cons,
          List.map_nil, trim_dropCarriageReturn]
    | cons next parts =>
      rw [linesOfPieces, List.map_cons, List.map_cons, List.map_cons, List.filter_cons,
        List.filter_cons, ih]
      exact List.cons_ne_nil _ _

theorem filter_trim_lines_append (text more : List Char) :
    ((lines (text ++ '\n' :: more)).map trim).filter (!·.isEmpty) =
      ((lines text).map trim).filter (!·.isEmpty) ++
        ((lines more).map trim).filter (!·.isEmpty) := by
  rw [lines_append, List.map_append, List.filter_append, ← filter_trim_linesOfPieces, ← lines]

end TerminalSession.Text

namespace TerminalSession.Transcript

theorem entryLines_append_cons (data more : Bytes) :
    entryLines (data ++ 0x0A :: more) = entryLines data ++ entryLines more := by
  have hdecode : Utf8.decode (data ++ 0x0A :: more) =
      Utf8.decode data ++ '\n' :: Utf8.decode more :=
    Utf8.decode_append_ascii data (by decide) more
  rw [entryLines, hdecode, Text.filter_trim_lines_append, entryLines, entryLines]

/-- **A transcript is read as its parts before and behind a line feed are.** -/
theorem read_append_cons (data more : Bytes) :
    read (data ++ 0x0A :: more) = read data ++ read more := by
  rw [read, entryLines_append_cons, List.filterMap_append, read, read]

/-- What can be added to: nothing, or something that ends with a line feed. -/
def Ended (data : Bytes) : Prop := data = [] ∨ data.getLast? = some 0x0A

/-- What is added to a transcript that has ended is read behind it. -/
theorem read_append {data : Bytes} (h : Ended data) (more : Bytes) :
    read (data ++ more) = read data ++ read more := by
  rcases h with rfl | h
  · rfl
  · obtain ⟨front, rfl⟩ := List.getLast?_eq_some_iff.mp h
    have hfront : read (front ++ [0x0A]) = read front ++ read [] := read_append_cons front []
    have hnothing : read [] = [] := rfl
    rw [hfront, hnothing, List.append_nil, List.append_assoc, List.singleton_append,
      read_append_cons]

/-! ## Text and damage -/

theorem text_append_cons (data more : Bytes) :
    text (data ++ 0x0A :: more) = text data ++ text more := by
  rw [text, read_append_cons, List.flatMap_append]
  rfl

theorem damagedLines_append_cons (data more : Bytes) :
    damagedLines (data ++ 0x0A :: more) = damagedLines data + damagedLines more := by
  rw [damagedLines, entryLines_append_cons, List.countP_append]
  rfl

/-- **Parts of a transcript that a line feed stands between have nothing to do with each other**,
whatever bytes they are: neither in what is read, nor in the text, nor in what is damaged. -/
theorem parts_apart (data more : Bytes) :
    read (data ++ 0x0A :: more) = read data ++ read more ∧
      text (data ++ 0x0A :: more) = text data ++ text more ∧
      damagedLines (data ++ 0x0A :: more) = damagedLines data + damagedLines more := by
  refine ⟨?_, ?_, ?_⟩
  · exact read_append_cons data more
  · exact text_append_cons data more
  · exact damagedLines_append_cons data more

/-- A character is cut, and an entry written between its parts: each of them damages the line it is
on, and the entry is read. -/
example :
    let e : Entry := { time := 0, direction := .output, text := "a" }
    let data := 0xE2 :: 0x0A :: (Utf8.encode e.write ++ [0x0A, 0x82, 0xAC])
    read data = [e] ∧ damagedLines data = 2 := by
  decide +kernel

end TerminalSession.Transcript
