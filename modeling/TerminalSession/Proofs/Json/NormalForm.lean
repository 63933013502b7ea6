import TerminalSession.Proofs.Json.RoundTrip
import TerminalSession.Proofs.Transcript.RoundTrip
import TerminalSession.Status
import TerminalSession.Transcript.Search

/-!
# Normal forms of messages

Programs send each other statuses, changes, entries and matches as JSON texts. Many texts stand for
one value: the fields of a record may come in any order and among others, or their values alone as
an array (`Lenient`), strings may be escaped in several ways, and there may be spaces. The text that
is written for the value is one of them, and the normal form of them all: it is read as that value,
what is written for it again is the same, and there is no control character in it (`Normalizes`).

Numbers are read only if 64 bits hold them, and what is read is written within those bounds. Larger
ones could be written, but would not be read.
-/

set_option autoImplicit false

namespace TerminalSession.Json

variable {α : Type}

/-! ## Formats -/

/-- The text written for a value. -/
def encode (toJson : α → Json) (v : α) : List Char := write (toJson v)

/-- The value that a text stands for. -/
def decode? (ofJson? : Json → Option α) (text : List Char) : Option α := (read? text).bind ofJson?

/-- Values written in one way, and read when written in many. `fits` holds of the values that can be
read. -/
structure Normalizes (toJson : α → Json) (ofJson? : Json → Option α) (fits : α → Prop) : Prop where
  /-- What is written is read as what it was written for. -/
  survives : ∀ v, fits v → decode? ofJson? (encode toJson v) = some v
  /-- Whatever is read can be written so that it is read again, and written again it is the same. -/
  normal : ∀ text v, decode? ofJson? text = some v → fits v ∧
    decode? ofJson? (encode toJson v) = some v ∧
    (decode? ofJson? (encode toJson v)).map (encode toJson) = some (encode toJson v)
  noControl : ∀ v, ∀ c ∈ encode toJson v, 0x20 ≤ c.toNat

theorem normalizes_of_faithful {toJson : α → Json} {ofJson? : Json → Option α} {fits : α → Prop}
    (hfaithful : ∀ v, Faithful (toJson v)) (hback : ∀ v, fits v → ofJson? (toJson v) = some v)
    (hfits : ∀ j v, ofJson? j = some v → fits v) : Normalizes toJson ofJson? fits := by
  have hsurvives : ∀ v, fits v → decode? ofJson? (encode toJson v) = some v := by
    intro v hv
    rw [decode?, encode, (hfaithful v).read?_write, Option.bind_some, hback v hv]
  refine ⟨hsurvives, ?_, fun v => (hfaithful v).noControl⟩
  -- Nothing has to be known of the text but that the value read from it fits.
  intro text v hread
  obtain ⟨j, -, hj⟩ := Option.bind_eq_some_iff.mp hread
  have hv : fits v := hfits j v hj
  refine ⟨hv, hsurvives v hv, ?_⟩
  rw [hsurvives v hv, Option.map_some]

/-! ## Records -/

/-- Records that are also read from other texts than the one that is written: their fields may come
in another order and among members with other names, or as the items of an array. -/
structure Lenient (toJson : α → Json) (ofJson? : Json → Option α) (fits : α → Prop) : Prop where
  anyOrder : ∀ {v : α} {fields others members : List (String × Json)}, fits v →
    toJson v = ofFields fields → members.Perm (fields ++ others) →
    (∀ o ∈ others, o.1 ∉ fields.map (·.1)) →
    ∀ text, read? text = some (ofFields members) → decode? ofJson? text = some v
  asArray : ∀ {v : α} {fields : List (String × Json)}, fits v → toJson v = ofFields fields →
    ∀ text, read? text = some (.array (fields.map (·.2))) → decode? ofJson? text = some v

/-- A record has one list of members. -/
theorem ofFields_inj {fields fields' : List (String × Json)} (h : ofFields fields = ofFields fields') :
    fields = fields' := by
  rw [ofFields, ofFields, object.injEq] at h
  apply (List.map_inj_right _).mp h
  intro f g heq
  obtain ⟨hname, hvalue⟩ := Prod.mk.inj heq
  have htext := congrArg plain? hname
  rw [plain?_symbols, plain?_symbols] at htext
  exact Prod.ext (String.toList_inj.mp (Option.some.inj htext)) hvalue

/-- A record that is read by the names of its fields alone. -/
theorem lenient_of_fields {toJson : α → Json} {ofJson? : Json → Option α} {fits : α → Prop}
    (fields : α → List (String × Json)) (names : List String) (hnames : names.Nodup)
    (hfields : ∀ v, (fields v).map (·.1) = names) (htoJson : ∀ v, toJson v = ofFields (fields v))
    (hread : ∀ {j j' : Json}, j.fields? names = j'.fields? names → ofJson? j = ofJson? j')
    (hback : ∀ v, fits v → ofJson? (toJson v) = some v) : Lenient toJson ofJson? fits := by
  have hself (v : α) : (toJson v).fields? names = some ((fields v).map (·.2)) := by
    rw [htoJson, ← hfields v]
    apply fields?_ofFields
    rwa [hfields]
  have hdecode {v : α} (hv : fits v) {j : Json} (hj : j.fields? names = some ((fields v).map (·.2)))
      {text : List Char} (htext : read? text = some j) : decode? ofJson? text = some v := by
    rw [decode?, htext, Option.bind_some, hread (hj.trans (hself v).symm), hback v hv]
  refine ⟨?_, ?_⟩
  · intro v written others members hv hwritten hperm hothers text htext
    obtain rfl : fields v = written := ofFields_inj ((htoJson v).symm.trans hwritten)
    apply hdecode hv _ htext
    rw [← hfields v]
    apply fields?_of_perm _ hothers hperm
    rwa [hfields]
  · intro v written hv hwritten text htext
    obtain rfl : fields v = written := ofFields_inj ((htoJson v).symm.trans hwritten)
    apply hdecode hv _ htext
    have hlength : ((fields v).map (·.2)).length = names.length := by
      rw [← hfields v, List.length_map, List.length_map]
    rw [fields?, if_pos hlength]

/-! ## Natural numbers of 64 bits -/

theorem nat64?_ofInt {n : Nat} (h : n < Decimal.nat64Limit) : (ofInt n).nat64? = some n := by
  have hint : (ofInt n).int? = some (.ofNat n) := int?_ofInt n
  simp only [nat64?, hint, if_pos h]

theorem lt_of_nat64? {j : Json} {n : Nat} (h : j.nat64? = some n) : n < Decimal.nat64Limit := by
  unfold nat64? at h
  split at h
  next =>
    split at h
    next hlt => exact Option.some.inj h ▸ hlt
    next => cases h
  next => cases h

end TerminalSession.Json

namespace TerminalSession

/-! ## Messages -/

namespace Status

theorem ofJson?_toJson (s : Status) : ofJson? s.toJson = some s := by
  cases s <;> simp [ofJson?, toJson, Json.case?_ofString, ofName?, all, name]

end Status

namespace Change

theorem faithful_toJson (c : Change) : c.toJson.Faithful := by
  apply Json.Faithful.ofFields
  intro f hf
  simp only [List.mem_cons, List.not_mem_nil, or_false] at hf
  rcases hf with rfl | rfl
  · exact .ofString c.previous.name
  · exact .ofString c.current.name

theorem ofJson?_toJson (c : Change) : ofJson? c.toJson = some c := by
  have hfields : c.toJson.fields? ["previous", "current"] =
      some [c.previous.toJson, c.current.toJson] := by
    have hnames : ["previous", "current"].Nodup := by decide
    exact Json.fields?_ofFields hnames
  simp [ofJson?, hfields, Status.ofJson?_toJson]

theorem lenient : Json.Lenient toJson ofJson? fun _ => True := by
  apply Json.lenient_of_fields
    (fun c : Change => [("previous", c.previous.toJson), ("current", c.current.toJson)])
    ["previous", "current"] (by decide) (fun _ => rfl) (fun _ => rfl)
  · intro j j' h
    rw [ofJson?, h, ofJson?]
  · exact fun c _ => c.ofJson?_toJson

end Change

namespace Entry

theorem isInt64_of_ofJson? {j : Json} {e : Entry} (h : ofJson? j = some e) :
    Decimal.isInt64 e.time = true := by
  unfold ofJson? at h
  split at h
  next =>
    obtain ⟨time, htime, h⟩ := Option.bind_eq_some_iff.mp h
    obtain ⟨direction, -, h⟩ := Option.bind_eq_some_iff.mp h
    obtain ⟨text, -, h⟩ := Option.bind_eq_some_iff.mp h
    obtain rfl := Option.some.inj h
    exact (Option.filter_eq_some_iff.mp htime).2
  next => cases h

theorem lenient :
    Json.Lenient toJson ofJson? fun e => Decimal.isInt64 e.time = true := by
  apply Json.lenient_of_fields
    (fun e : Entry => [("ts", .ofInt e.time), ("type", .ofString e.direction.name),
      ("text", .ofString e.text)])
    ["ts", "type", "text"] (by decide) (fun _ => rfl) (fun _ => rfl)
  · intro j j' h
    rw [ofJson?, h, ofJson?]
  · exact fun e he => ofJson?_toJson he

end Entry

namespace Match

theorem faithful_toJson (m : Match) : m.toJson.Faithful := by
  apply Json.Faithful.ofFields
  intro f hf
  simp only [List.mem_cons, List.not_mem_nil, or_false] at hf
  rcases hf with rfl | rfl | rfl
  · exact .ofString m.source
  · exact .ofInt m.offset
  · exact .ofString m.snippet

theorem ofJson?_toJson {m : Match} (h : m.offset < Decimal.nat64Limit) :
    ofJson? m.toJson = some m := by
  have hfields : m.toJson.fields? ["source", "offset", "snippet"] =
      some [.ofString m.source, .ofInt m.offset, .ofString m.snippet] := by
    have hnames : ["source", "offset", "snippet"].Nodup := by decide
    exact Json.fields?_ofFields hnames
  simp [ofJson?, hfields, Json.nat64?_ofInt h]

theorem lt_of_ofJson? {j : Json} {m : Match} (h : ofJson? j = some m) :
    m.offset < Decimal.nat64Limit := by
  unfold ofJson? at h
  split at h
  next =>
    obtain ⟨source, -, h⟩ := Option.bind_eq_some_iff.mp h
    obtain ⟨offset, hoffset, h⟩ := Option.bind_eq_some_iff.mp h
    obtain ⟨snippet, -, h⟩ := Option.bind_eq_some_iff.mp h
    obtain rfl := Option.some.inj h
    exact Json.lt_of_nat64? hoffset
  next => cases h

theorem lenient : Json.Lenient toJson ofJson? fun m => m.offset < Decimal.nat64Limit := by
  apply Json.lenient_of_fields
    (fun m : Match => [("source", .ofString m.source), ("offset", .ofInt m.offset),
      ("snippet", .ofString m.snippet)])
    ["source", "offset", "snippet"] (by decide) (fun _ => rfl) (fun _ => rfl)
  · intro j j' h
    rw [ofJson?, h, ofJson?]
  · exact fun m hm => ofJson?_toJson hm

end Match

namespace Json

/-- **Messages have a normal form.** A status or a change is read back from what is written for it,
and so is an entry or a match whose number 64 bits hold. And whatever text is read as one, however
its strings are escaped and its parts are spaced and ordered: what is written for the value it stands
for is read as the same value, stays as it is when it is read and written again, and holds no control
character. Records are read with their fields in any order, among other members, or as arrays. -/
theorem messages_normalize :
    Normalizes Status.toJson Status.ofJson? (fun _ => True) ∧
      (Normalizes Change.toJson Change.ofJson? (fun _ => True) ∧
        Lenient Change.toJson Change.ofJson? fun _ => True) ∧
      (Normalizes Entry.toJson Entry.ofJson? (fun e => Decimal.isInt64 e.time = true) ∧
        Lenient Entry.toJson Entry.ofJson? fun e => Decimal.isInt64 e.time = true) ∧
      Normalizes Match.toJson Match.ofJson? (fun m => m.offset < Decimal.nat64Limit) ∧
        Lenient Match.toJson Match.ofJson? fun m => m.offset < Decimal.nat64Limit := by
  refine ⟨?_, ⟨?_, Change.lenient⟩, ⟨?_, Entry.lenient⟩, ?_, Match.lenient⟩
  · apply normalizes_of_faithful
    · exact fun s => .ofString s.name
    · exact fun s _ => s.ofJson?_toJson
    · exact fun _ _ _ => trivial
  · apply normalizes_of_faithful
    · exact Change.faithful_toJson
    · exact fun c _ => c.ofJson?_toJson
    · exact fun _ _ _ => trivial
  · apply normalizes_of_faithful
    · exact Entry.faithful_toJson
    · exact fun _ h => Entry.ofJson?_toJson h
    · exact fun _ _ h => Entry.isInt64_of_ofJson? h
  · apply normalizes_of_faithful
    · exact Match.faithful_toJson
    · exact fun _ h => Match.ofJson?_toJson h
    · exact fun _ _ h => Match.lt_of_ofJson? h

/-- An entry at the first of all times. Its fields are in another order, one that is not known
stands between them, and a pair of escapes stands for one character. -/
def strayEntry : List Char :=
  ("\x7b \"text\": \"\\ud83d\\ude00\\/\\u0000\", \"x\": [1e9, \x7b\"ts\": \"\\ud800\"\x7d],\r\n" ++
    "\t\"type\": \x7b\"output\": null\x7d, \"ts\": -9223372036854775808 \x7d").toList

/-- A match as an array, at the last of all places. -/
def arrayMatch : List Char := "[\"a\\tb\", 18446744073709551615,\"\\\"\"]".toList

theorem messages_normalize_stray :
    let e : Entry := ⟨-9223372036854775808, .output, "😀/\x00"⟩
    let m : Match := ⟨"a\tb", 18446744073709551615, "\""⟩
    (decode? Entry.ofJson? strayEntry = some e ∧ decode? Match.ofJson? arrayMatch = some m) ∧
      decode? Entry.ofJson? (encode Entry.toJson e) = some e ∧
      decode? Match.ofJson? (encode Match.toJson m) = some m := by
  intro e m
  have he : decode? Entry.ofJson? strayEntry = some e := by decide +kernel
  have hm : decode? Match.ofJson? arrayMatch = some m := by decide +kernel
  exact ⟨⟨he, hm⟩, (messages_normalize.2.2.1.1.normal strayEntry e he).2.1,
    (messages_normalize.2.2.2.1.normal arrayMatch m hm).2.1⟩

end Json

end TerminalSession
