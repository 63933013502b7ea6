import TerminalSession.Files

/-!
# Appending to a file

A path at which something can be appended leads to a file, or to a place in a directory where there
is none yet. Putting a file there changes no directory, so the same path then leads to that file
(`follow_put`), whatever dots and parents it goes through. Hence what can be appended to once can be
appended to again, and the file holds what it held before, followed by what was appended
(`append_of_appendable`).

What other paths lead to is not looked at; some of them may lead to the same file.
-/

set_option autoImplicit false

namespace TerminalSession.Directory

/-- The names of the file at a place, be it there or not. -/
def Place.names? : Place → Option (List String)
  | .directory => none
  | .file names _ | .vacant names => some names

/-- What is at a place before anything is appended. -/
def Place.bytes : Place → Bytes
  | .file _ content => content
  | .directory | .vacant _ => []

/-- Something can be appended to a path. -/
def Appendable (d : Directory) (path : String) : Prop := ∃ after, d.append path [] = .ok after

/-- What is read at a path; nothing if there is no file. -/
def contentAt (d : Directory) (path : String) : Bytes :=
  match d.read path with
  | .ok content => content
  | .error _ => []

/-! ## The tree with a file put into it -/

/-- A file is found under its names alone. -/
theorem content?_put (d : Directory) (names other : List String) (content : Bytes) :
    (d.put names content).content? other =
      if other = names then some content else d.content? other := by
  unfold put
  split
  next hthere =>
    -- Each file keeps its names, so the same one is found, with the new content if it is the one.
    obtain ⟨old, hold⟩ := Option.isSome_iff_exists.mp hthere
    obtain ⟨file, hfile, -⟩ := Option.map_eq_some_iff.mp hold
    have hsame (f : List String × Bytes) :
        (decide ((if f.1 = names then (names, content) else f).1 = other)) =
          decide (f.1 = other) := by
      split
      next h => rw [h]
      next => rfl
    simp only [content?, List.find?_map, Function.comp_def, hsame]
    split
    next h =>
      have hnames : file.1 = names := by simpa only [decide_eq_true_eq] using List.find?_some hfile
      rw [h, hfile, Option.map_some, Option.map_some, if_pos hnames]
    next h =>
      cases hother : d.files.find? fun f => decide (f.1 = other) with
      | none => rfl
      | some f =>
        have hf : f.1 = other := by simpa only [decide_eq_true_eq] using List.find?_some hother
        rw [Option.map_some, Option.map_some, if_neg fun hn => h (hf.symm.trans hn)]
        rfl
  next hnone =>
    have hnot : d.files.find? (fun f => decide (f.1 = names)) = none := by
      simpa only [content?, Option.isSome_map, Option.not_isSome_iff_eq_none] using hnone
    by_cases h : other = names
    · simp only [content?, List.find?_append, List.find?_singleton, h, hnot, decide_true, if_true,
        Option.none_or, Option.map_some]
    · have hne : ¬names = other := fun hn => h hn.symm
      simp only [content?, List.find?_append, List.find?_singleton, h, hne, decide_false,
        Bool.false_eq_true, if_false, Option.or_none]

theorem hasDirectory_put (d : Directory) (names other : List String) (content : Bytes) :
    (d.put names content).hasDirectory other = d.hasDirectory other := by
  unfold put
  split <;> rfl

theorem look_put_self (d : Directory) (names : List String) (content : Bytes) :
    (d.put names content).look names = .file names content := by
  rw [look, content?_put, if_pos rfl]

theorem look_put_of_ne (d : Directory) {names other : List String} (content : Bytes)
    (h : other ≠ names) : (d.put names content).look other = d.look other := by
  rw [look, content?_put, if_neg h, hasDirectory_put]
  rfl

/-- What is seen somewhere is seen under the names it has. -/
theorem names?_look {d : Directory} {here names : List String}
    (h : (d.look here).names? = some names) : here = names := by
  unfold look at h
  split at h
  next => exact Option.some.inj h
  next =>
    split at h
    next => cases h
    next => exact Option.some.inj h

/-- A place found from somewhere is seen under its names. -/
theorem look_of_follow {d : Directory} {here parts : List String} {place : Place}
    {names : List String} (h : d.follow here parts = .ok place) (hn : place.names? = some names) :
    d.look names = place := by
  induction parts generalizing here with
  | nil =>
    have hplace : d.look here = place := Except.ok.inj h
    rw [← hplace] at hn ⊢
    rw [names?_look hn]
  | cons part parts ih =>
    unfold follow at h
    split at h
    next => cases h
    next => cases h
    next =>
      split at h
      next => exact ih h
      next =>
        split at h
        next => exact ih h
        next =>
          split at h
          next => cases h
          next => exact ih h

/-- **A path leads to what was put where it led to**: the directories on the way are elsewhere. -/
theorem follow_put {d : Directory} {here parts : List String} {place : Place} {names : List String}
    (h : d.follow here parts = .ok place) (hn : place.names? = some names) (content : Bytes) :
    (d.put names content).follow here parts = .ok (.file names content) := by
  have hlook := look_of_follow h hn
  induction parts generalizing here with
  | nil =>
    have hplace : d.look here = place := Except.ok.inj h
    have hhere : here = names := names?_look (hplace ▸ hn)
    rw [follow, hhere, look_put_self]
  | cons part parts ih =>
    rw [follow] at h ⊢
    have hne (hdir : d.look here = .directory) : here ≠ names := by
      intro heq
      rw [← heq, hdir] at hlook
      rw [← hlook] at hn
      cases hn
    cases hdir : d.look here with
    | file other old =>
      rw [hdir] at h
      cases h
    | vacant other =>
      rw [hdir] at h
      cases h
    | directory =>
      rw [look_put_of_ne d content (hne hdir), hdir]
      rw [hdir] at h
      simp only at h ⊢
      split at h
      next hstay => rw [if_pos hstay]; exact ih h
      next hstay =>
        rw [if_neg hstay]
        split at h
        next hup => rw [if_pos hup]; exact ih h
        next hup =>
          rw [if_neg hup]
          split at h
          next => cases h
          next hlong => rw [if_neg hlong]; exact ih h

/-! ## Appending -/

/-- A path at which a file can be made is followed as any other path is. -/
theorem follows_of_locateNew {d : Directory} {path : String} {place : Place} {names : List String}
    (h : d.locateNew path = .ok place) (hn : place.names? = some names) :
    ∃ start parts, d.follow start parts = .ok place ∧
      ∀ other : Directory, other.locateNew path = other.follow start parts ∧
        other.locate path = other.follow start parts := by
  unfold locateNew at h
  cases hsplit : split path with
  | error e =>
    rw [hsplit] at h
    cases h
  | ok found =>
    obtain ⟨start, parts⟩ := found
    rw [hsplit] at h
    have hslash : path.endsWith "/" = false := by
      cases hends : path.endsWith "/" with
      | false => rfl
      | true =>
        -- A slash at the end asks for a directory, which no file is made in place of.
        simp only [hends, bind, Except.bind, pure, Except.pure, if_true] at h
        cases hfollow : d.follow start (beforeSlashes parts) with
        | error e =>
          rw [hfollow] at h
          cases h
        | ok found =>
          rw [hfollow] at h
          cases found with
          | directory =>
            cases h
            cases hn
          | file names content => cases h
          | vacant names => cases h
    have hboth (other : Directory) : other.locateNew path = other.follow start parts ∧
        other.locate path = other.follow start parts := by
      constructor
      · simp only [locateNew, hsplit, hslash, bind, Except.bind, Bool.false_eq_true, if_false]
      · simp only [locate, hsplit, bind, Except.bind]
    refine ⟨start, parts, ?_, hboth⟩
    rw [← (hboth d).1, locateNew, hsplit]
    exact h

theorem append_eq {d : Directory} {path : String} {place : Place} {names : List String}
    (h : d.locateNew path = .ok place) (hn : place.names? = some names) (bytes : Bytes) :
    d.append path bytes = .ok (d.put names (place.bytes ++ bytes)) := by
  unfold append
  rw [h]
  cases place with
  | directory => cases hn
  | file other content =>
    cases hn
    rfl
  | vacant other =>
    cases hn
    rfl

theorem exists_place {d : Directory} {path : String} (h : d.Appendable path) :
    ∃ place names, d.locateNew path = .ok place ∧ place.names? = some names := by
  obtain ⟨after, hafter⟩ := h
  unfold append at hafter
  cases hplace : d.locateNew path with
  | error e =>
    rw [hplace] at hafter
    cases hafter
  | ok place =>
    rw [hplace] at hafter
    cases place with
    | directory => cases hafter
    | file names content => exact ⟨_, names, rfl, rfl⟩
    | vacant names => exact ⟨_, names, rfl, rfl⟩

theorem contentAt_of_locate {d : Directory} {path : String} {place : Place}
    (h : d.locate path = .ok place) : d.contentAt path = place.bytes := by
  unfold contentAt read
  rw [h]
  cases place <;> rfl

/-- **What is appended stands behind what was there**, and more can be appended behind it. -/
theorem append_of_appendable {d : Directory} {path : String} (h : d.Appendable path)
    (bytes : Bytes) :
    ∃ after, d.append path bytes = .ok after ∧
      after.contentAt path = d.contentAt path ++ bytes ∧ after.Appendable path := by
  obtain ⟨place, names, hplace, hn⟩ := exists_place h
  obtain ⟨start, parts, hfollow, hpath⟩ := follows_of_locateNew hplace hn
  have hput := follow_put hfollow hn (place.bytes ++ bytes)
  refine ⟨_, append_eq hplace hn bytes, ?_, _, append_eq ((hpath _).1.trans hput) rfl []⟩
  rw [contentAt_of_locate ((hpath _).2.trans hput), contentAt_of_locate ((hpath d).2.trans hfollow)]
  rfl

end TerminalSession.Directory
