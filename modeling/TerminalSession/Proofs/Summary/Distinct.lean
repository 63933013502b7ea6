import TerminalSession.Summary

/-!
# Learnings without repeats

The learnings are gone through once, with the lower-case forms of those met so far. What is left is
what it should be by the places the learnings have: each learning that none before it has the
lower-case form of, in order (`distinct_eq_firstOf`). Two texts may have one lower-case form without
being alike, so the first spelling is the one that is kept. To leave out repeats once more leaves
out nothing (`distinct_distinct`).
-/

set_option autoImplicit false

namespace TerminalSession.Summary

variable {α κ : Type} [DecidableEq κ]

/-- Whether an element has the key of none of those given. -/
def isNew (key : α → κ) (earlier : List α) (x : α) : Bool := earlier.all fun e => key e ≠ key x

/-- The elements that no earlier one has the key of. -/
def firstOf (key : α → κ) (all : List α) : List α :=
  (all.zipIdx.filter fun p => isNew key (all.take p.2) p.1).map Prod.fst

theorem isNew_iff {key : α → κ} {earlier : List α} {x : α} :
    isNew key earlier x = true ↔ key x ∉ earlier.map key := by
  rw [isNew, List.all_eq_true, List.mem_map, not_exists]
  refine forall_congr' fun e => ?_
  rw [decide_eq_true_iff, not_and]

/-- The forms already seen are those of all the learnings before, left out or not: one that was left
out has the form of one that was not. -/
theorem distinctAfter_eq {seen : List (List Char)} (before rest : List (List Char))
    (h : ∀ form, form ∈ seen ↔ form ∈ before.map Text.lower) :
    distinctAfter seen rest =
      ((rest.zipIdx before.length).filter fun p =>
        isNew Text.lower ((before ++ rest).take p.2) p.1).map Prod.fst := by
  induction rest generalizing seen before with
  | nil => rfl
  | cons learning rest ih =>
    have hbefore : (before ++ learning :: rest).take before.length = before := List.take_left
    have hmore : before ++ learning :: rest = (before ++ [learning]) ++ rest :=
      List.append_cons before learning rest
    have hlength : before.length + 1 = (before ++ [learning]).length := by
      rw [List.length_append, List.length_singleton]
    have hforms : ∀ form, form ∈ (before ++ [learning]).map Text.lower ↔
        form ∈ before.map Text.lower ∨ form = Text.lower learning := by
      intro form
      rw [List.map_append, List.mem_append, List.map_singleton, List.mem_singleton]
    rw [distinctAfter, List.zipIdx_cons, List.filter_cons, hbefore]
    by_cases hseen : Text.lower learning ∈ seen
    · -- It repeats one from before, whose form the list of forms seen holds already.
      have hold : ¬ isNew Text.lower before learning = true := by
        rw [isNew_iff, ← h]
        exact not_not_intro hseen
      rw [if_pos (List.contains_iff_mem.mpr hseen), if_neg hold, hlength, hmore]
      refine ih _ fun form => ?_
      rw [hforms, ← h]
      refine ⟨Or.inl, ?_⟩
      rintro (hform | rfl)
      · exact hform
      · exact hseen
    · have hnew : isNew Text.lower before learning = true := by
        rw [isNew_iff, ← h]
        exact hseen
      rw [if_neg (mt List.contains_iff_mem.mp hseen), if_pos hnew, List.map_cons, hlength, hmore]
      congr 1
      refine ih _ fun form => ?_
      rw [hforms, ← h, List.mem_cons, or_comm]

/-- **What is left are the learnings that no earlier one has the lower-case form of.** -/
theorem distinct_eq_firstOf (all : List (List Char)) : distinct all = firstOf Text.lower all :=
  distinctAfter_eq [] all fun _ => Iff.rfl

theorem distinctAfter_distinctAfter (seen all : List (List Char)) :
    distinctAfter seen (distinctAfter seen all) = distinctAfter seen all := by
  induction all generalizing seen with
  | nil => rfl
  | cons learning all ih =>
    rw [distinctAfter]
    by_cases hseen : seen.contains (Text.lower learning) = true
    · rw [if_pos hseen, ih]
    · rw [if_neg hseen, distinctAfter, if_neg hseen, ih]

/-- Nothing that is left repeats anything. -/
theorem distinct_distinct (all : List (List Char)) : distinct (distinct all) = distinct all :=
  distinctAfter_distinctAfter [] all

theorem distinctAfter_sublist (seen all : List (List Char)) :
    (distinctAfter seen all).Sublist all := by
  induction all generalizing seen with
  | nil => exact List.Sublist.refl []
  | cons learning all ih =>
    rw [distinctAfter]
    split
    · exact (ih _).cons _
    · exact (ih _).cons_cons _

end TerminalSession.Summary
