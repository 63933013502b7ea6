import TerminalSession.Log.Pattern.Set
import TerminalSession.Text.Alphanumeric

/-!
# Patterns

A log filter may ask for a field whose value matches a *pattern*: a regular expression. No line of
this program's log ever meets such a request, so nothing is matched here. But a filter with a text
that is no pattern is no filter, and `isPattern` decides which texts are patterns.

A pattern consists of symbols and sets in a row. Each may be repeated, bars stand between rows of
which one has to match, and parentheses make one part of a pattern. A pair of parentheses may have a
name, which no other has, and may set modes for what it encloses; parentheses that only set modes
set them up to the end of what encloses them. What would need more than reading the text once, such
as looking ahead or meeting a group again, is no part of patterns, and nesting has a limit.

The text comes from between commas and braces, so a count of repetitions cannot be completed: an
opening brace outside of sets always spoils a pattern.
-/

namespace TerminalSession.Log.Pattern

set_option autoImplicit false

/-- Parts in a row. -/
structure Row where
  count : Nat := 0
  /-- The nesting of the deepest part. -/
  depth : Nat := 0
  /-- The nesting of the last part, if it can be repeated. -/
  last : Option Nat := none
  deriving DecidableEq, Repr

namespace Row

/-- One more part. -/
def add (r : Row) (depth : Nat) : Row :=
  { count := r.count + 1, depth := max r.depth depth, last := some depth }

/-- One more part that only sets modes. -/
def addModes (r : Row) : Row := { r with count := r.count + 1, last := none }

/-- The last part repeated. -/
def repeat? (r : Row) : Option Row :=
  r.last.map fun depth => { r with depth := max r.depth (depth + 1), last := some (depth + 1) }

/-- How deep a row is nested: several parts are nested a level below it. -/
def nesting (r : Row) : Nat := if r.count ≤ 1 then r.depth else r.depth + 1

end Row

/-- Rows with bars between them. -/
structure Choice where
  /-- The nesting of the deepest row that a bar has ended. -/
  ended : Option Nat := none
  row : Row := {}
  deriving DecidableEq, Repr

namespace Choice

/-- The choice with another last row. -/
def withRow (c : Choice) (row : Row) : Choice := { c with row }

/-- The nesting of the deepest row. -/
def deepest (c : Choice) : Nat := max (c.ended.getD 0) c.row.nesting

/-- A bar ends the last row. -/
def bar (c : Choice) : Choice := { ended := some c.deepest }

/-- How deep a choice is nested: rows with bars between them are nested a level below it. -/
def nesting (c : Choice) : Nat := if c.ended.isSome then c.deepest + 1 else c.deepest

end Choice

/-- A group that has been begun and not ended: what is around it. -/
structure OpenGroup where
  outer : Choice
  modes : Modes
  deriving DecidableEq, Repr

/-- How far a pattern has been read. -/
structure Progress where
  modes : Modes := {}
  inner : Choice := {}
  groups : List OpenGroup := []
  /-- The names of groups so far. -/
  names : List (List Char) := []
  deriving DecidableEq, Repr

namespace Progress

/-- One more part. -/
def add (p : Progress) (depth : Nat) : Progress :=
  { p with inner := p.inner.withRow (p.inner.row.add depth) }

/-- One more symbol, if it is allowed. -/
def addSymbol? (p : Progress) (symbol : Symbol) : Option Progress :=
  if symbol.isAllowed p.modes.unicode then some (p.add 0) else none

/-- The last part repeated. -/
def repeat? (p : Progress) : Option Progress :=
  p.inner.row.repeat?.map fun row => { p with inner := p.inner.withRow row }

/-- A group begins, with modes of its own. -/
def beginGroup (p : Progress) (modes : Modes) : Progress :=
  { p with modes, inner := {}, groups := { outer := p.inner, modes := p.modes } :: p.groups }

/-- The innermost group ends, and its modes with it. -/
def endGroup? (p : Progress) : Option Progress :=
  match p.groups with
  | [] => none
  | g :: groups =>
    some ({ p with modes := g.modes, inner := g.outer, groups }.add (p.inner.nesting + 1))

end Progress

/-! ## Modes and names -/

/-- The letters that stand for modes. -/
def modeLetters : List Char := "imsUuRx".toList

/-- Whether no element of a list occurs in it again. -/
def allDistinct : List Char → Bool
  | [] => true
  | c :: rest => !rest.contains c && allDistinct rest

/-- Whether a mode is on, given the letters of the modes set and whether it was on before: the
letters behind a dash switch modes off. -/
def isOn (letter : Char) (letters : List Char) (before : Bool) : Bool :=
  if letter ∈ letters then letter ∈ letters.takeWhile (· ≠ '-') else before

/-- Modes changed by letters: each stands once, and there may be one dash, but not at the end. -/
def Modes.set? (modes : Modes) (letters : List Char) : Option Modes :=
  if allDistinct letters && letters.all (fun c => c = '-' || modeLetters.contains c)
      && letters.getLast? != some '-' then
    some { unicode := isOn 'u' letters modes.unicode, spaced := isOn 'x' letters modes.spaced }
  else none

/-- Whether a text is the name of a group: a letter or an underscore, and then also digits, dots and
brackets. -/
def isName : List Char → Bool
  | [] => false
  | c :: rest =>
    (c = '_' || Text.isAlphabetic c)
      && rest.all fun c => c ∈ ['_', '.', '[', ']'] || Text.isAlphanumeric c

/-- Begins a group with a name, which is written before a closing angle. -/
def beginNamed? (p : Progress) (text : List Char) : Option (Progress × List Char) :=
  let name := text.takeWhile (· ≠ '>')
  match text.drop name.length with
  | _ :: rest =>
    if isName name && !p.names.contains name then
      some ({ p.beginGroup p.modes with names := name :: p.names }, rest)
    else none
  | [] => none

/-- Sets modes, for a group if a colon follows their letters, and otherwise from here on. -/
def setModes? (p : Progress) (text : List Char) : Option (Progress × List Char) := do
  let letters := text.takeWhile fun c => c ≠ ':' && c ≠ ')'
  let modes ← p.modes.set? letters
  match text.drop letters.length with
  | ':' :: rest => some (p.beginGroup modes, rest)
  | _ :: rest =>
    if letters.isEmpty then none
    else some ({ p with modes, inner := p.inner.withRow p.inner.row.addModes }, rest)
  | [] => none

/-- Reads the beginning of a group after its parenthesis. -/
def readGroup? (p : Progress) (text : List Char) : Option (Progress × List Char) :=
  match p.modes.skip text with
  | '?' :: 'P' :: '<' :: rest => beginNamed? p rest
  | '?' :: '<' :: rest => beginNamed? p rest
  | '?' :: rest => setModes? p rest
  | rest => some (p.beginGroup p.modes, rest)

/-! ## Whole patterns -/

/-- Reads one part, or a sign between parts. -/
def readPart? (p : Progress) : List Char → Option (Progress × List Char)
  | [] => none
  | '(' :: rest => readGroup? p rest
  | ')' :: rest => p.endGroup?.map (·, rest)
  | '|' :: rest => some ({ p with inner := p.inner.bar }, rest)
  | '[' :: rest => (readSet? p.modes rest).map fun s => (p.add s.1.depth, s.2)
  | '\\' :: rest => do
    let (symbol, rest) ← Symbol.readEscape? p.modes rest
    (p.addSymbol? symbol).map (·, rest)
  | '.' :: rest => (p.addSymbol? .any).map (·, rest)
  | c :: rest =>
    if c = '^' || c = '$' then (p.addSymbol? .edge).map (·, rest)
    else if c = '\x7b' then none
    else if c = '?' || c = '*' || c = '+' then
      p.repeat?.map (·, if rest.head? = some '?' then rest.drop 1 else rest)
    else (p.addSymbol? (.plain c)).map (·, rest)

/-- Reads parts to the end. The fuel is how much text there is. -/
def readParts? : (fuel : Nat) → Progress → List Char → Option Progress
  | 0, p, text => if (p.modes.skip text).isEmpty then some p else none
  | fuel + 1, p, text =>
    match p.modes.skip text with
    | [] => some p
    | text => do
      let (p, rest) ← readPart? p text
      readParts? fuel p rest

/-- How deep a pattern may be nested. -/
def deepest : Nat := 250

/-- Whether a text is a pattern. -/
def isPattern (text : List Char) : Bool :=
  match readParts? text.length {} text with
  | some p => p.groups.isEmpty && p.inner.nesting ≤ deepest
  | none => false

end TerminalSession.Log.Pattern
