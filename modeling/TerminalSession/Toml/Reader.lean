import TerminalSession.Toml.Date
import TerminalSession.Toml.Number
import TerminalSession.Toml.Tables
import TerminalSession.Toml.Text

/-!
# Reading TOML

A document is read in two steps: into its lines, each a header or a key with its value, and from
those into one table. Either step refuses a document that is not well-formed; nobody is told where.
-/

namespace TerminalSession.Toml

set_option autoImplicit false

/-! ## Keys -/

/-- One part of a key. -/
def readPart? : Reader (List Char)
  | [] => none
  | c :: rest =>
    if c = '"' || c = '\'' then readLineText? (c :: rest)
    else
      let bare := (c :: rest).takeWhile isBare
      if bare.isEmpty then none else some (bare, (c :: rest).drop bare.length)

/-- The parts of a key that dots separate, with spaces around them. -/
def readParts? : (fuel : Nat) → Reader (List (List Char))
  | 0, _ => none
  | fuel + 1, text => do
    let (part, rest) ← readPart? (skipSpace text)
    match skipSpace rest with
    | '.' :: rest => (readParts? fuel rest).map fun r => (part :: r.1, r.2)
    | rest => some ([part], rest)

/-- A key: the tables it leads through and its last part. -/
def readKey? : Reader (List (List Char) × List Char) := fun text => do
  let (parts, rest) ← readParts? (text.length + 1) text
  if depthLimit ≤ parts.length then none
  else some ((parts.dropLast, ← parts.getLast?), rest)

/-! ## Values -/

/-- The items of an array after the first, up to and with the closing bracket. -/
def readItems? (readItem : Reader Toml) : (fuel : Nat) → Reader (List Toml)
  | 0, _ => none
  | fuel + 1, text => do
    match ← skipBlank? text with
    | ']' :: rest => some ([], rest)
    | text =>
      let (item, rest) ← readItem text
      match ← skipBlank? rest with
      | ',' :: rest => (readItems? readItem fuel rest).map fun r => (item :: r.1, r.2)
      | ']' :: rest => some ([item], rest)
      | _ => none

/-- A key and its value, given how values are read. -/
def readPair? (readValue : Reader Toml) : Reader ((List (List Char) × List Char) × Toml) :=
  fun text => do
    let (key, rest) ← readKey? text
    let (value, rest) ← readValue (skipSpace (← after? '=' rest))
    some ((key, value), rest)

/-- The keys and values of an inline table, up to and with the closing brace. -/
def readPairs? (readValue : Reader Toml) :
    (fuel : Nat) → Reader (List ((List (List Char) × List Char) × Toml))
  | 0, _ => none
  | fuel + 1, text => do
    let (pair, rest) ← readPair? readValue text
    match skipSpace rest with
    | ',' :: rest => (readPairs? readValue fuel rest).map fun r => (pair :: r.1, r.2)
    | '\x7d' :: rest => some ([pair], rest)
    | _ => none

/-- The table of an inline table's keys and values. -/
def inlineTable? (pairs : List ((List (List Char) × List Char) × Toml)) : Option Toml := do
  let members ← pairs.foldlM (fun members pair =>
    (assignPath pair.1.1 pair.1.2 pair.2 .header members).map (·.2)) ([] : Members)
  some (.table (memberValues members))

/-- A word with a fixed meaning. -/
def readWord? (word : String) (value : Toml) : Reader Toml := fun text =>
  if word.toList.isPrefixOf text then some (value, text.drop word.length) else none

/-- A value that holds no others. -/
def readScalar? : Reader Toml
  | [] => none
  | c :: rest =>
    let text := c :: rest
    if c = '"' || c = '\'' then (readText? text).map fun r => (.string r.1, r.2)
    else if c = 't' then readWord? "true" (.boolean true) text
    else if c = 'f' then readWord? "false" (.boolean false) text
    else readDate? text <|> readFloat? text <|> readSpecial? text <|> readInteger? text

/-- A value in which so many levels of arrays and inline tables may be nested. -/
def readValue? : (depth : Nat) → Reader Toml
  | 0, text => readScalar? text
  | depth + 1, text =>
    match text with
    | '[' :: rest =>
      if depth = 0 then none
      else (readItems? (readValue? depth) (rest.length + 1) rest).map fun r => (.array r.1, r.2)
    | '\x7b' :: rest =>
      if depth = 0 then none
      else match skipSpace rest with
        | '\x7d' :: rest => some (.table [], rest)
        | _ => do
          let (pairs, rest) ← readPairs? (readValue? depth) (rest.length + 1) rest
          some (← inlineTable? pairs, rest)
    | _ => readScalar? text

/-! ## Documents -/

/-- A line of a document. -/
inductive Line where
  | pair (path : List (List Char)) (key : List Char) (value : Toml)
  | header (path : List (List Char)) (key : List Char)
  /-- A header of a table in a series. -/
  | nextHeader (path : List (List Char)) (key : List Char)

/-- A header, given what follows its opening bracket. -/
def readHeader? : Reader Line
  | '[' :: rest => do
    let ((path, key), rest) ← readKey? rest
    some (.nextHeader path key, ← after? ']' (← after? ']' rest))
  | text => do
    let ((path, key), rest) ← readKey? text
    some (.header path key, ← after? ']' rest)

/-- One line. -/
def readLine? : Reader Line
  | '[' :: rest => do
    let (line, rest) ← readHeader? rest
    some (line, ← afterLine? rest)
  | text => do
    let (((path, key), value), rest) ← readPair? (readValue? depthLimit) text
    some (.pair path key value, ← afterLine? rest)

/-- The lines of a document. -/
def readDocument? : (fuel : Nat) → List Char → Option (List Line)
  | 0, _ => none
  | fuel + 1, text => do
    match ← skipBlank? text with
    | [] => some []
    | text =>
      let (line, rest) ← readLine? text
      (readDocument? fuel rest).map (line :: ·)

/-- A document being read: its tables and the one that keys now stand in. -/
structure Draft where
  members : Members := []
  path : List (List Char) := []

/-- Adds a line to a document. -/
def Draft.add? (d : Draft) : Line → Option Draft
  | .pair path key value => do
    let (_, members) ← edit false d.path (assignPath path key value) .header d.members
    some { d with members }
  | .header path key => do
    let (_, members) ← edit false path (define key) .header d.members
    some { members, path := path ++ [key] }
  | .nextHeader path key => do
    let (_, members) ← edit false path (defineNext key) .header d.members
    some { members, path := path ++ [key] }

/-- The text without a byte-order mark. -/
def skipMark : List Char → List Char
  | c :: rest => if c.toNat = 0xFEFF then rest else c :: rest
  | [] => []

/-- The table that a document stands for. -/
def read? (text : List Char) : Option (List (List Char × Toml)) := do
  let text := skipMark text
  let lines ← readDocument? (text.length + 1) text
  let draft ← lines.foldlM Draft.add? ({} : Draft)
  some (memberValues draft.members)

end TerminalSession.Toml
