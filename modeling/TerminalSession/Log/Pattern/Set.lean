import TerminalSession.Log.Pattern.Symbol

/-!
# Sets in patterns

A set of characters is written in brackets: characters, ranges of them, kinds of them and further
sets, all negated by a caret at the beginning. A dash at the beginning or the end stands for itself,
and so does a closing bracket at the beginning. Doubled signs between two halves of a set mean that
both have to hold the character, or the first and not the second, or only one of the two.

`readSet?` tells where a set ends and how deep it is nested, and refuses what is no set. Where
symbols stand for bytes, a set of bytes is built from ASCII, and may not end up holding others. Only
negation brings those in, and always all of them, so that one flag, `beyond`, follows them.
-/

namespace TerminalSession.Log.Pattern

set_option autoImplicit false

/-- A set or a half of one. -/
structure Half where
  /-- How deep sets and halves are nested in it. -/
  depth : Nat := 0
  /-- Whether it holds the bytes beyond ASCII. -/
  beyond : Bool := false
  deriving DecidableEq, Repr

/-- What a set holds so far, or its last half. -/
structure Members where
  count : Nat := 0
  /-- The nesting of the deepest of them. -/
  depth : Nat := 0
  beyond : Bool := false
  deriving DecidableEq, Repr

/-- One more member. -/
def Members.add (m : Members) (member : Half) : Members :=
  { count := m.count + 1
    depth := max m.depth member.depth
    beyond := m.beyond || member.beyond }

/-- Members as one: several are nested a level below. -/
def Members.half (m : Members) : Half :=
  { depth := if m.count ≤ 1 then m.depth else m.depth + 1
    beyond := m.beyond }

/-- What a doubled sign makes of two halves. -/
inductive SetSign where
  | both
  | without
  | either
  deriving DecidableEq, Repr

/-- The sign that a character means when doubled. -/
def SetSign.ofChar? : Char → Option SetSign
  | '&' => some .both
  | '-' => some .without
  | '~' => some .either
  | _ => none

/-- Two halves of a set as one. -/
def SetSign.join (sign : SetSign) (left right : Half) : Half :=
  { depth := max left.depth right.depth + 1
    beyond :=
      match sign with
      | .both => left.beyond && right.beyond
      | .without => left.beyond && !right.beyond
      | .either => left.beyond != right.beyond }

/-- A set that has been begun and not ended. -/
structure OpenSet where
  /-- What the set around it holds so far. -/
  outer : Members := {}
  negated : Bool
  /-- The half before the last doubled sign, and the sign. -/
  left : Option (Half × SetSign) := none
  deriving DecidableEq, Repr

/-- The last half of a set, joined with those before it. -/
def OpenSet.join (s : OpenSet) (members : Members) : Half :=
  match s.left with
  | some (left, sign) => sign.join left members.half
  | none => members.half

/-- A set that ends. Of bytes, it may hold only those of ASCII. -/
def OpenSet.close? (s : OpenSet) (unicode : Bool) (members : Members) : Option Half :=
  let all := s.join members
  let beyond := all.beyond != s.negated
  if !unicode && beyond then none else some { depth := all.depth + 1, beyond }

/-- The names that kinds of characters have inside sets. -/
def kindNames : List (List Char) :=
  ["alnum", "alpha", "ascii", "blank", "cntrl", "digit", "graph", "lower", "print", "punct",
   "space", "upper", "word", "xdigit"].map String.toList

/-- Reads a kind of characters after its opening bracket: a name between colons, and the closing
bracket. Tells whether the kind is negated, and what follows. -/
def readKind? : List Char → Option (Bool × List Char)
  | ':' :: text =>
    let negated := text.head? = some '^'
    let text := if negated then text.drop 1 else text
    let name := text.takeWhile (· ≠ ':')
    match text.drop name.length with
    | ':' :: ']' :: rest => if name ∈ kindNames then some (negated, rest) else none
    | _ => none
  | _ => none

/-- The character after a dash that tells what the dash means. -/
def afterDash (modes : Modes) (text : List Char) : Option Char :=
  if modes.spaced then
    match Text.trimStart text with
    | '#' :: rest => (Text.trimStart rest).head?
    | text => text.head?
  else text.head?

/-- Reads one symbol of a set. -/
def readMember? (modes : Modes) : List Char → Option (Symbol × List Char)
  | '\\' :: rest => Symbol.readEscape? modes rest
  | c :: rest => some (.plain c, rest)
  | [] => none

/-- Reads a range after its first character and the dash. -/
def readRange? (modes : Modes) (first : Symbol) (text : List Char) : Option (List Char) := do
  let (last, rest) ← readMember? modes (modes.skip text)
  match first, last with
  | .character a _, .character b _ =>
    if a ≤ b && first.isMember modes.unicode && last.isMember modes.unicode then some rest else none
  | _, _ => none

/-- Reads a symbol of a set or a range, and gives what follows. -/
def readItem? (modes : Modes) (text : List Char) : Option (List Char) := do
  let (first, rest) ← readMember? modes text
  let single := if first.isMember modes.unicode then some (modes.skip rest) else none
  match modes.skip rest with
  | [] => none
  | '-' :: others =>
    match afterDash modes others with
    | some ']' | some '-' => single
    | _ => readRange? modes first others
  | _ => single

/-- Reads sets to the end of the outermost. `atStart` holds while a set has only dashes. Gives the
outermost set and what follows it; the fuel is how much text there is. -/
def readSets? (modes : Modes) : (fuel : Nat) → (sets : List OpenSet) → (members : Members) →
    (atStart : Bool) → List Char → Option (Half × List Char)
  | 0, _, _, _, _ => none
  | _ + 1, [], _, _, _ => none
  | fuel + 1, s :: sets, members, atStart, text =>
    let goOn := readSets? modes fuel
    let put (rest : List Char) := goOn (s :: sets) (members.add {}) false rest
    match modes.skip text with
    | [] => none
    | '[' :: rest =>
      match readKind? rest with
      | some (negated, rest) => goOn (s :: sets) (members.add { beyond := negated }) false rest
      | none =>
        match modes.skip rest with
        | '^' :: rest => goOn ({ outer := members, negated := true } :: s :: sets) {} true rest
        | rest => goOn ({ outer := members, negated := false } :: s :: sets) {} true rest
    | ']' :: rest =>
      if atStart && members.count = 0 then put rest
      else
        match s.close? modes.unicode members, sets with
        | none, _ => none
        | some whole, [] => some (whole, rest)
        | some whole, around => goOn around (s.outer.add whole) false rest
    | '-' :: rest =>
      if atStart then goOn (s :: sets) (members.add {}) true rest
      else if rest.head? = some '-' then
        goOn ({ s with left := some (s.join members, .without) } :: sets) {} false (rest.drop 1)
      else (readItem? modes ('-' :: rest)).bind put
    | c :: rest =>
      match SetSign.ofChar? c, decide (rest.head? = some c) with
      | some sign, true =>
        goOn ({ s with left := some (s.join members, sign) } :: sets) {} false (rest.drop 1)
      | _, _ => (readItem? modes (c :: rest)).bind put

/-- Reads a set after its opening bracket. -/
def readSet? (modes : Modes) (text : List Char) : Option (Half × List Char) :=
  match modes.skip text with
  | '^' :: rest => readSets? modes text.length [{ negated := true }] {} true rest
  | rest => readSets? modes text.length [{ negated := false }] {} true rest

end TerminalSession.Log.Pattern
