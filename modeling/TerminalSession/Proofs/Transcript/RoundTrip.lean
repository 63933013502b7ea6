import TerminalSession.Proofs.Json.RoundTrip
import TerminalSession.Proofs.Text.Lines
import TerminalSession.Proofs.Text.Trim
import TerminalSession.Proofs.Utf8.Codec
import TerminalSession.Transcript

/-!
# Transcripts are read as what was written

An entry is written as a record without control characters (`noControl_write`), so it takes one line
whatever its text holds, and neither the splitting into lines nor the trimming of each takes a
character away. Reading therefore gives the entries back, from batches appended one after the other
as from one (`read_stored`).

Times are those of 64 bits; larger ones are written, and not read. Lines that a transcript holds
besides written entries are not considered.
-/

set_option autoImplicit false

namespace TerminalSession

namespace Direction

theorem ofJson?_ofString (d : Direction) : ofJson? (.ofString d.name) = some d := by
  cases d <;> simp [ofJson?, Json.case?_ofString, ofName?, name]

end Direction

namespace Entry

theorem faithful_toJson (e : Entry) : e.toJson.Faithful := by
  apply Json.Faithful.ofFields
  intro f hf
  simp only [List.mem_cons, List.not_mem_nil, or_false] at hf
  rcases hf with rfl | rfl | rfl
  · exact .ofInt e.time
  · exact .ofString e.direction.name
  · exact .ofString e.text

theorem ofJson?_toJson {e : Entry} (h : Decimal.isInt64 e.time = true) :
    ofJson? e.toJson = some e := by
  have hfields : e.toJson.fields? ["ts", "type", "text"] =
      some [.ofInt e.time, .ofString e.direction.name, .ofString e.text] := by
    have hnames : ["ts", "type", "text"].Nodup := by decide
    exact Json.fields?_ofFields hnames
  simp [ofJson?, hfields, Json.int64?_ofInt h, Direction.ofJson?_ofString]

/-- **An entry is read back from its line.** -/
theorem read?_write {e : Entry} (h : Decimal.isInt64 e.time = true) : read? e.write = some e := by
  rw [read?, write, e.faithful_toJson.read?_write, Option.bind_some, ofJson?_toJson h]

theorem noControl_write (e : Entry) : ∀ c ∈ e.write, 0x20 ≤ c.toNat := e.faithful_toJson.noControl

theorem lineFeed_not_mem_write (e : Entry) : '\n' ∉ e.write := by
  intro h
  exact absurd (e.noControl_write '\n' h) (by decide)

/-- The line of an entry is its members between braces. -/
theorem exists_write_eq (e : Entry) : ∃ members, e.write = '\x7b' :: members ++ ['\x7d'] :=
  ⟨_, Json.write_ofFields _⟩

theorem head?_write (e : Entry) : e.write.head? = some '\x7b' := by
  obtain ⟨members, h⟩ := e.exists_write_eq
  simp [h]

theorem getLast?_write (e : Entry) : e.write.getLast? = some '\x7d' := by
  obtain ⟨members, h⟩ := e.exists_write_eq
  rw [h, List.getLast?_concat]

theorem trim_write (e : Entry) : Text.trim e.write = e.write := by
  apply Text.trim_eq_self
  · simp only [head?_write, Option.mem_def, Option.some.injEq, forall_eq']
    decide
  · simp only [getLast?_write, Option.mem_def, Option.some.injEq, forall_eq']
    decide

theorem lines_writeAll (entries : List Entry) :
    Text.lines (writeAll entries) = entries.map write := by
  have hlines : Text.lines ((entries.map write).flatMap (· ++ ['\n'])) = entries.map write :=
    Text.lines_flatMap (by simp [lineFeed_not_mem_write]) (by simp [getLast?_write])
  rwa [List.flatMap_map] at hlines

theorem writeAll_flatten (batches : List (List Entry)) :
    writeAll batches.flatten = batches.flatMap writeAll := by
  induction batches with
  | nil => rfl
  | cons batch batches ih =>
    rw [List.flatten_cons, List.flatMap_cons, ← ih, writeAll, List.flatMap_append]
    rfl

end Entry

namespace Transcript

theorem entryLines_writeAll (entries : List Entry) :
    entryLines (Utf8.encode (Entry.writeAll entries)) = entries.map Entry.write := by
  have htrim : (entries.map Entry.write).map Text.trim = entries.map Entry.write := by
    simp [Entry.trim_write]
  rw [entryLines, Utf8.decode_encode, Entry.lines_writeAll, htrim, List.filter_eq_self]
  intro line hline
  obtain ⟨e, -, rfl⟩ := List.mem_map.mp hline
  obtain ⟨members, h⟩ := e.exists_write_eq
  simp [h]

theorem read_writeAll {entries : List Entry} (h : ∀ e ∈ entries, Decimal.isInt64 e.time = true) :
    read (Utf8.encode (Entry.writeAll entries)) = entries := by
  rw [read, entryLines_writeAll]
  induction entries with
  | nil => rfl
  | cons e entries ih =>
    obtain ⟨he, hentries⟩ := List.forall_mem_cons.mp h
    rw [List.map_cons, List.filterMap_cons_some (Entry.read?_write he), ih hentries]

/-- What a transcript holds after batches were appended to it. -/
def stored (batches : List (List Entry)) : Bytes :=
  batches.flatMap fun batch => Utf8.encode (Entry.writeAll batch)

theorem stored_eq (batches : List (List Entry)) :
    stored batches = Utf8.encode (Entry.writeAll batches.flatten) := by
  rw [Entry.writeAll_flatten, Utf8.encode, List.flatMap_assoc]
  rfl

/-- **What is written batch by batch is read as the batches' entries**, in order. Each entry takes
one line: the lines of what was written are the entries' texts, and none of these breaks. -/
theorem read_stored (batches : List (List Entry))
    (times : ∀ batch ∈ batches, ∀ e ∈ batch, Decimal.isInt64 e.time = true) :
    read (stored batches) = batches.flatten ∧
      Text.lines (Utf8.decode (stored batches)) = batches.flatten.map Entry.write ∧
      ∀ e ∈ batches.flatten, '\n' ∉ e.write := by
  have hentries : ∀ e ∈ batches.flatten, Decimal.isInt64 e.time = true := by
    intro e he
    obtain ⟨batch, hbatch, he⟩ := List.mem_flatten.mp he
    exact times batch hbatch e he
  rw [stored_eq]
  refine ⟨read_writeAll hentries, ?_, fun e _ => e.lineFeed_not_mem_write⟩
  rw [Utf8.decode_encode, Entry.lines_writeAll]

/-- Batches whose texts hold what a line could break or lose, at the first and last times. -/
def awkward : List (List Entry) :=
  [[⟨-0x8000000000000000, .input, "\n\r\"\\ \x01\u2028 "⟩, ⟨0, .output, ""⟩], [],
    [⟨0x7FFFFFFFFFFFFFFF, .output, "\u0085\t\x7f\r\n"⟩]]

theorem read_stored_awkward :
    (∀ batch ∈ awkward, ∀ e ∈ batch, Decimal.isInt64 e.time = true) ∧
      read (stored awkward) = awkward.flatten := by
  have times : ∀ batch ∈ awkward, ∀ e ∈ batch, Decimal.isInt64 e.time = true := by decide
  exact ⟨times, (read_stored awkward times).1⟩

end Transcript

end TerminalSession
