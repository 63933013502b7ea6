import TerminalSession.CommandLine.Reader
import TerminalSession.Proofs.Log.Override
import TerminalSession.Proofs.Settings.Checks

/-!
# Overrides on a command line

The value of an option is read when the option is met, and one that cannot be read ends the reading
of the command line. So the choices of a level have all been read from some value
(`Level.Sound`): each argument keeps this (`Level.Sound.take`), and so does a whole command line.

The value behind an option for overrides is parted at its commas before each part is read, so no
override on a command line was written with one, and all survive being written
(`directives_of_read`). Which of them count is not looked at.
-/

set_option autoImplicit false

namespace TerminalSession.CommandLine

open Settings (exists_of_bind)

/-! ## Choices -/

theorem exists_of_mapM {α β : Type} {f : α → Option β} {xs : List α} {ys : List β}
    (h : xs.mapM f = some ys) : ∀ y ∈ ys, ∃ x ∈ xs, f x = some y := by
  induction xs generalizing ys with
  | nil =>
    cases h
    exact List.forall_mem_nil _
  | cons x xs ih =>
    rw [List.mapM_cons] at h
    obtain ⟨first, hfirst, h⟩ := Option.bind_eq_some_iff.mp h
    obtain ⟨rest, hrest, h⟩ := Option.bind_eq_some_iff.mp h
    cases h
    rw [List.forall_mem_cons]
    refine ⟨⟨x, List.mem_cons_self, hfirst⟩, ?_⟩
    intro y hy
    obtain ⟨x', hx', hy'⟩ := ih hrest y hy
    exact ⟨x', List.mem_cons_of_mem _ hx', hy'⟩

theorem given_of_overrides? {value : List Char} {overrides : List Log.Override}
    (h : Switch.overrides? value = some overrides) : ∀ o ∈ overrides, o.Given := by
  intro o ho
  obtain ⟨text, htext, hread⟩ := exists_of_mapM h o ho
  refine ⟨text, Text.not_mem_of_mem_pieces htext, ?_⟩
  apply Log.Override.read_eq_ok_iff.mp
  cases hresult : Log.Override.read text with
  | error fault =>
    rw [hresult] at hread
    cases hread
  | ok other =>
    rw [hresult] at hread
    rw [Option.some.inj hread]

/-- A choice that an option with some value stands for. -/
def Choice.Read (choice : Choice) : Prop :=
  ∃ (s : Switch) (value : List Char), s.choice? value = some choice

theorem Choice.Read.given {overrides : List Log.Override} (h : (Choice.log overrides).Read) :
    ∀ o ∈ overrides, o.Given := by
  obtain ⟨s, value, h⟩ := h
  cases s
  case log =>
    obtain ⟨others, hread, hsame⟩ := Option.map_eq_some_iff.mp h
    cases hsame
    exact given_of_overrides? hread
  all_goals simp [Switch.choice?] at h

namespace Level

/-! ## One argument -/

/-- All that has been chosen has been read. -/
def Sound (l : Level) : Prop := ∀ choice ∈ l.choices, choice.Read

variable {l l' : Level}

/-- Nothing has been chosen where no argument has been taken. -/
theorem sound_start (verb : Option Verb) : ({ verb } : Level).Sound := List.forall_mem_nil _

theorem Sound.give (hl : l.Sound) {s : Switch} {value : List Char}
    (h : l.give s value = .ok l') : l'.Sound := by
  unfold Level.give at h
  split at h
  next => cases h
  next => cases h
  next =>
    split at h
    next => cases h
    next =>
      split at h
      next choice hchoice =>
        cases h
        intro other hmem
        rcases List.mem_append.mp hmem with hmem | hmem
        · exact hl other hmem
        · rw [List.mem_singleton.mp hmem]
          exact ⟨s, value, hchoice⟩
      next => cases h

theorem Sound.takeLong (hl : l.Sound) {text : List Char} (h : l.takeLong text = .ok l') :
    l'.Sound := by
  simp only [Level.takeLong] at h
  split at h
  next => cases h
  next s _ _ =>
    split at h
    next =>
      cases h
      exact hl
    next => exact hl.give h
  next s _ value _ _ =>
    split at h
    next => exact hl.give h
    next => cases h

theorem Sound.takeLetters {letters : List Char} (hl : l.Sound)
    (h : Level.takeLetters letters l = .ok l') : l'.Sound := by
  induction letters generalizing l with
  | nil =>
    cases h
    exact hl
  | cons c letters ih =>
    unfold Level.takeLetters at h
    split at h
    next => cases h
    next s hs =>
      split at h
      next =>
        -- What is left of the letters is the value, if anything is left.
        split at h
        next =>
          cases h
          exact hl
        next => exact hl.give h
        next => exact hl.give h
      next =>
        obtain ⟨next, hgive, hrest⟩ := exists_of_bind h
        exact ih (hl.give hgive) hrest

theorem Sound.takeOperand (hl : l.Sound) {text : List Char} (h : l.takeOperand text = .ok l') :
    l'.Sound := by
  unfold Level.takeOperand at h
  split at h
  next => cases h
  next =>
    split at h
    next => cases h
    next =>
      split at h
      next => cases h
      next =>
        cases h
        exact hl

/-- **Taking an argument adds no choice that has not been read.** -/
theorem Sound.take (hl : l.Sound) {text : List Char} (h : l.take text = .ok l') : l'.Sound := by
  unfold Level.take at h
  split at h
  next => exact hl.takeOperand h
  next =>
    split at h
    next s hs =>
      split at h
      next => cases h
      next =>
        have hwaiting : ({ l with pending := none } : Level).Sound := hl
        exact hwaiting.give h
    next =>
      split at h
      next =>
        cases h
        exact hl
      next => exact hl.takeLong h
      next => exact hl.takeLetters h
      next => exact hl.takeOperand h

theorem Sound.takeAll (hl : l.Sound) {arguments : List (List Char)}
    (h : arguments.foldlM Level.take l = .ok l') : l'.Sound := by
  induction arguments generalizing l with
  | nil =>
    cases h
    exact hl
  | cons text arguments ih =>
    obtain ⟨next, htake, hrest⟩ := exists_of_bind h
    exact ih (hl.take htake) hrest

/-- A level is ended as it is. -/
theorem eq_of_done (h : l.done = .ok l') : l' = l := by
  unfold Level.done at h
  split at h
  next => cases h
  next =>
    cases h
    rfl

end Level

/-! ## All arguments -/

theorem given_of_invocation? {verb : Verb} {before after : Level} {i : Command.Invocation}
    (hbefore : before.Sound) (hafter : after.Sound)
    (h : invocation? verb before after = some i) : ∀ o ∈ i.overrides, o.Given := by
  obtain ⟨command, -, h⟩ := Option.bind_eq_some_iff.mp h
  cases h
  intro o ho
  obtain ⟨choice, hchoice, ho⟩ := List.mem_flatMap.mp ho
  have hread : choice.Read := by
    rcases List.mem_append.mp hchoice with hmem | hmem
    · exact hafter choice hmem
    · exact hbefore choice (List.mem_filter.mp hmem).1
  cases choice
  case log overrides => exact hread.given o ho
  all_goals exact absurd ho List.not_mem_nil

theorem given_of_readCommand {before : Level} (hbefore : before.Sound) {verb : Verb}
    {arguments : List (List Char)} {i : Command.Invocation}
    (h : readCommand before verb arguments = .ok i) : ∀ o ∈ i.overrides, o.Given := by
  obtain ⟨after, htake, hrest⟩ := exists_of_bind h
  obtain ⟨last, hdone, hresult⟩ := exists_of_bind hrest
  obtain rfl := Level.eq_of_done hdone
  split at hresult
  next invocation hinvocation =>
    cases hresult
    have hafter := (Level.sound_start (some verb)).takeAll htake
    exact given_of_invocation? hbefore hafter hinvocation
  next => cases hresult

theorem given_of_readFrom {before : Level} (hbefore : before.Sound)
    {arguments : List (List Char)} {i : Command.Invocation}
    (h : readFrom before arguments = .ok i) : ∀ o ∈ i.overrides, o.Given := by
  induction arguments generalizing before with
  | nil =>
    obtain ⟨_, -, h⟩ := exists_of_bind h
    cases h
  | cons text rest ih =>
    unfold readFrom at h
    split at h
    next =>
      obtain ⟨next, htake, hrest⟩ := exists_of_bind h
      exact ih (hbefore.take htake) hrest
    next =>
      split at h
      next => cases h
      next =>
        split at h
        next => exact given_of_readCommand hbefore h
        next => cases h

/-- **Whatever command line is read, its overrides survive being written**: the text of directives
comes apart into those of the preset and one for each override, in order, and each of these is read
as the override that it was written for. -/
theorem directives_of_read {arguments : List String} {i : Command.Invocation}
    (h : read arguments = .ok i) :
    Text.pieces ',' (Log.directives i.preset i.overrides) =
        i.preset.directives.map String.toList ++ i.overrides.map Log.Override.write ∧
      (i.overrides.map Log.Override.write).map Log.Override.read = i.overrides.map .ok :=
  Log.directives_restored i.preset (given_of_readFrom (Level.sound_start none) h)

end TerminalSession.CommandLine
