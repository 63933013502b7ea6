import TerminalSession.Archive
import TerminalSession.Proofs.Summary.Distinct
import TerminalSession.Proofs.Transcript.Joined

/-!
# What a new session begins with

The learnings in files are the lines that hold something, with the blanks around them left out
(`noted`). It does not matter how they are spread over files, nor whether the last line of a file is
ended: they are the learnings in one text, that of the files joined by line feeds (`noted_eq`). Of
those that repeat no earlier one a new session is shown the latest, each on a line of its own
(`Shows`, `insights_latest`).

The files are taken to be readable and to hold text. Where one is not, there is no answer but a
failure.
-/

set_option autoImplicit false

namespace TerminalSession.Summary

/-! ## Learnings -/

/-- The lines of texts that hold something, without the blanks around them. -/
def noted (texts : List (List Char)) : List (List Char) :=
  ((texts.flatMap Text.lines).map Text.trim).filter (!·.isEmpty)

/-- The learnings in each of the texts, behind each other. -/
theorem noted_eq_flatten (texts : List (List Char)) :
    noted texts = (texts.map learnings).flatten := by
  rw [noted, List.map_flatMap, List.filter_flatMap, List.flatMap_def]
  rfl

/-- **Only the lines of the joined texts matter.** -/
theorem noted_eq (texts : List (List Char)) :
    noted texts = learnings (List.intercalate ['\n'] texts) := by
  rw [noted_eq_flatten]
  induction texts with
  | nil => rfl
  | cons text texts ih =>
    cases texts with
    | nil => rw [List.map_singleton, List.flatten_singleton, List.intercalate_singleton]
    | cons next texts =>
      have hmore : next :: texts ≠ [] := List.cons_ne_nil _ _
      rw [List.map_cons, List.flatten_cons, ih, Text.intercalate_cons '\n' text hmore, learnings,
        learnings, learnings, Text.filter_trim_lines_append]

/-- A learning is on one line. -/
theorem lineFeed_not_mem_learnings {text learning : List Char} (h : learning ∈ learnings text) :
    '\n' ∉ learning := by
  rw [learnings, Text.lines, Text.filter_trim_linesOfPieces, List.map_map] at h
  obtain ⟨piece, hpiece, rfl⟩ := List.mem_map.mp (List.mem_filter.mp h).1
  intro hmem
  rw [Function.comp_apply, Text.trim_dropCarriageReturn] at hmem
  exact Text.not_mem_of_mem_pieces hpiece ((Text.trim_infix piece).subset hmem)

/-- No blank is at its end. -/
theorem getLast?_learnings {text learning : List Char} (h : learning ∈ learnings text) :
    learning.getLast? ≠ some '\r' := by
  obtain ⟨line, -, rfl⟩ := List.mem_map.mp (List.mem_filter.mp h).1
  intro hlast
  exact absurd (Text.getLast?_trim line '\r' hlast) (by decide)

/-! ## The latest -/

/-- An answer with the latest of all learnings, so many of them at most. -/
structure Shows (kept : Nat) (all : List (List Char)) (answer : Option (List Char)) : Prop where
  none_iff : answer = none ↔ all = []
  /-- The heading, and behind it the learnings and nothing else. -/
  latest : ∀ text ∈ answer, ∃ older latest, all = older ++ latest ∧
    latest.length = min kept all.length ∧
    text = heading.toList ++ (latest.flatMap fun learning => "- ".toList ++ learning ++ ['\n']) ∧
    Text.lines text =
      "Engineering insights from previous sessions:".toList :: latest.map ("- ".toList ++ ·)

/-- Learnings that are on one line each are shown on one line each. -/
theorem lines_shown {latest : List (List Char)} (hline : ∀ learning ∈ latest, '\n' ∉ learning)
    (hlast : ∀ learning ∈ latest, learning.getLast? ≠ some '\r') :
    Text.lines
        (heading.toList ++ latest.flatMap fun learning => "- ".toList ++ learning ++ ['\n']) =
      "Engineering insights from previous sessions:".toList :: latest.map ("- ".toList ++ ·) := by
  have hwritten :
      heading.toList ++ (latest.flatMap fun learning => "- ".toList ++ learning ++ ['\n']) =
        ("Engineering insights from previous sessions:".toList ::
          latest.map ("- ".toList ++ ·)).flatMap (· ++ ['\n']) := by
    rw [List.flatMap_cons, List.flatMap_map]
    rfl
  rw [hwritten, Text.lines_flatMap]
  · refine List.forall_mem_cons.mpr ⟨by decide, ?_⟩
    intro line hmem
    obtain ⟨learning, hlearning, rfl⟩ := List.mem_map.mp hmem
    exact List.not_mem_append (by decide) (hline learning hlearning)
  · refine List.forall_mem_cons.mpr ⟨by decide, ?_⟩
    intro line hmem
    obtain ⟨learning, hlearning, rfl⟩ := List.mem_map.mp hmem
    rw [List.getLast?_append]
    cases hend : learning.getLast? with
    | none => decide
    | some c =>
      rw [Option.some_or, ← hend]
      exact hlast learning hlearning

theorem sessionContext_shows {kept : Nat} (hkept : 0 < kept) (text : List Char) :
    Shows kept (firstOf Text.lower (learnings text)) (sessionContext kept (learnings text)) := by
  have hmem : ∀ learning ∈ distinct (learnings text), learning ∈ learnings text :=
    fun _ h => (distinctAfter_sublist [] _).subset h
  have hpos : decide (kept = 0) = false := decide_eq_false (Nat.ne_of_gt hkept)
  rw [← distinct_eq_firstOf, sessionContext, hpos, Bool.or_false]
  generalize distinct (learnings text) = all at hmem
  by_cases hnil : all = []
  · subst hnil
    exact ⟨⟨fun _ => rfl, fun _ => rfl⟩, fun answer hanswer => nomatch hanswer⟩
  · have hempty : ¬ all.isEmpty = true := mt List.isEmpty_iff.mp hnil
    rw [if_neg hempty]
    refine ⟨iff_of_false (Option.some_ne_none _) hnil, ?_⟩
    rintro answer ⟨⟩
    have hshown : ∀ learning ∈ all.drop (all.length - kept), learning ∈ learnings text :=
      fun learning h => hmem learning (List.mem_of_mem_drop h)
    refine ⟨all.take (all.length - kept), all.drop (all.length - kept),
      (List.take_append_drop _ _).symm, ?_, rfl, ?_⟩
    · rw [List.length_drop]
      omega
    · apply lines_shown
      · exact fun learning h => lineFeed_not_mem_learnings (hshown learning h)
      · exact fun learning h => getLast?_learnings (hshown learning h)

end TerminalSession.Summary

namespace TerminalSession.Archive

/-- Files that can be read, each with the text it holds. -/
def Stored (read : Reading) (files : List (String × List Char)) : Prop :=
  ∀ file ∈ files, read file.1 = .ok (Utf8.encode file.2)

theorem Stored.learnings {read : Reading} {files : List (String × List Char)}
    (h : Stored read files) {file : String × List Char} (hfile : file ∈ files) :
    learnings read file.1 = .ok (Summary.learnings file.2) := by
  have hdecode : Utf8.decode? (Utf8.encode file.2) = some file.2 :=
    Utf8.decode?_eq_some_iff.mpr rfl
  have htext : read.text file.1 = .ok file.2 := by
    simp only [Reading.text, h file hfile, bind, Except.bind, hdecode]
  rw [Archive.learnings, htext]
  rfl

/-- The learnings of all files are those noted in their texts. -/
theorem Stored.insights {read : Reading} {files : List (String × List Char)}
    (h : Stored read files) (limits : Settings.Summary) :
    insights read limits (files.map Prod.fst) =
      .ok (Summary.sessionContext limits.learningsKept
        (Summary.noted (files.map Prod.snd))) := by
  have hall : (files.map Prod.fst).mapM (Archive.learnings read) =
      .ok ((files.map Prod.snd).map Summary.learnings) := by
    induction files with
    | nil => rfl
    | cons file files ih =>
      rw [List.map_cons, List.mapM_cons, h.learnings List.mem_cons_self,
        ih fun other hother => h other (List.mem_cons_of_mem _ hother)]
      rfl
  rw [Archive.insights, hall, Summary.noted_eq_flatten]
  rfl

/-- Texts with the same lines, however they are spread: when joined by a line feed they are one
text, or each line of the ones is, at its place, a line of the others. -/
def SameLines (texts texts' : List (List Char)) : Prop :=
  List.intercalate ['\n'] texts = List.intercalate ['\n'] texts' ∨
    texts.flatMap Text.lines = texts'.flatMap Text.lines

theorem SameLines.noted {texts texts' : List (List Char)} (h : SameLines texts texts') :
    Summary.noted texts = Summary.noted texts' := by
  rcases h with h | h
  · rw [Summary.noted_eq, Summary.noted_eq, h]
  · rw [Summary.noted, Summary.noted, h]

/-- **A new session begins with the latest learnings**, where at least one may be kept. From files
that can be read there is an answer: none if no line of theirs holds anything, and else the heading
and the last of those lines that no earlier one has the lower-case form of. The same lines in other
files, or all in one, have the same answer; and what repeats is left out at once. -/
theorem insights_latest (limits : Settings.Summary) (hkept : 0 < limits.learningsKept) :
    (∀ (read : Reading) (files : List (String × List Char)), Stored read files →
      ∃ answer, insights read limits (files.map Prod.fst) = .ok answer ∧
        Summary.Shows limits.learningsKept
          (Summary.firstOf Text.lower (Summary.noted (files.map Prod.snd))) answer) ∧
      (∀ (read read' : Reading) (files files' : List (String × List Char)),
        Stored read files → Stored read' files' →
        SameLines (files.map Prod.snd) (files'.map Prod.snd) →
        insights read limits (files.map Prod.fst) =
          insights read' limits (files'.map Prod.fst)) ∧
      ∀ learnings, Summary.distinct (Summary.distinct learnings) = Summary.distinct learnings := by
  refine ⟨?_, ?_, Summary.distinct_distinct⟩
  · intro read files h
    refine ⟨_, h.insights limits, ?_⟩
    rw [Summary.noted_eq]
    exact Summary.sessionContext_shows hkept _
  · intro read read' files files' h h' hlines
    rw [h.insights, h'.insights, hlines.noted]

/-- A disk with these files. -/
def shelf (files : List (String × List Char)) : Reading := fun path =>
  match files.lookup path with
  | some text => .ok (Utf8.encode text)
  | none => .error .notFound

/-- Two files with blank lines, carriage returns and repeats; the first one's last line is not
ended. -/
def twoFiles : List (String × List Char) :=
  [("old", "Pin tool versions\r\n \r\n  Run clippy\r".toList),
    ("new", "\nrun CLIPPY \nPrefer rg\npin TOOL versions\n".toList)]

/-- The same in one file, with a line feed between. -/
def oneFile : List (String × List Char) :=
  [("all", List.intercalate ['\n'] (twoFiles.map Prod.snd))]

/-- The last two learnings in them: what stands first in the second file repeats the last line of
the first. -/
def shownOfTwo : List Char :=
  "Engineering insights from previous sessions:\n- Run clippy\n- Prefer rg\n".toList

theorem insights_latest_twoFiles :
    let limits : Settings.Summary := { learningsKept := 2 }
    (0 < limits.learningsKept ∧ Stored (shelf twoFiles) twoFiles ∧
        Stored (shelf oneFile) oneFile ∧
        SameLines (twoFiles.map Prod.snd) (oneFile.map Prod.snd)) ∧
      insights (shelf twoFiles) limits ["old", "new"] = .ok (some shownOfTwo) ∧
      Summary.Shows 2 ["Pin tool versions".toList, "Run clippy".toList, "Prefer rg".toList]
        (some shownOfTwo) ∧
      insights (shelf twoFiles) limits ["old", "new"] =
        insights (shelf oneFile) limits ["all"] := by
  intro limits
  have hkept : 0 < limits.learningsKept := Nat.succ_pos 1
  have htwo : Stored (shelf twoFiles) twoFiles :=
    List.forall_mem_cons.mpr ⟨rfl, List.forall_mem_singleton.mpr rfl⟩
  have hone : Stored (shelf oneFile) oneFile := List.forall_mem_singleton.mpr rfl
  have hlines : SameLines (twoFiles.map Prod.snd) (oneFile.map Prod.snd) :=
    .inl List.intercalate_singleton.symm
  have hfirst : Summary.firstOf Text.lower (Summary.noted (twoFiles.map Prod.snd)) =
      ["Pin tool versions".toList, "Run clippy".toList, "Prefer rg".toList] := by
    decide +kernel
  have hcontext : Summary.sessionContext 2 (Summary.noted (twoFiles.map Prod.snd)) =
      some shownOfTwo := by
    decide +kernel
  have htext : insights (shelf twoFiles) limits ["old", "new"] = .ok (some shownOfTwo) :=
    (htwo.insights limits).trans (congrArg Except.ok hcontext)
  have hlatest := insights_latest limits hkept
  obtain ⟨answer, hanswer, hshows⟩ := hlatest.1 (shelf twoFiles) twoFiles htwo
  have hshown : answer = some shownOfTwo := Except.ok.inj (hanswer.symm.trans htext)
  rw [hfirst, hshown] at hshows
  exact ⟨⟨hkept, htwo, hone, hlines⟩, htext, hshows, hlatest.2.1 _ _ _ _ htwo hone hlines⟩

end TerminalSession.Archive
