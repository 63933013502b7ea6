import TerminalSession.Toml

/-!
# TOML strings

Four kinds: between quotation marks with escapes, between apostrophes without, and each of them over
several lines between triple marks. A string over several lines may hold up to two of its marks in a
row, also right before the closing ones, and a line break right after the opening ones is left out.
-/

namespace TerminalSession.Toml

set_option autoImplicit false

/-- The character of a code point given by its hexadecimal digits. Surrogates are none. -/
def codePoint? (digits : List Char) : Option Char := do
  let n ← Decimal.read? 16 digits
  if n < 0xD800 || (0xDFFF < n && n < 0x110000) then some (Char.ofNat n) else none

/-- An escape, given what follows its backslash. -/
def readEscape? : Reader Char
  | [] => none
  | c :: rest =>
    if c = 'b' then some (Char.ofNat 0x08, rest)
    else if c = 't' then some ('\t', rest)
    else if c = 'n' then some ('\n', rest)
    else if c = 'f' then some (Char.ofNat 0x0C, rest)
    else if c = 'r' then some ('\r', rest)
    else if c = '"' || c = '\\' then some (c, rest)
    else if c = 'u' && 4 ≤ rest.length then (codePoint? (rest.take 4)).map (·, rest.drop 4)
    else if c = 'U' && 8 ≤ rest.length then (codePoint? (rest.take 8)).map (·, rest.drop 8)
    else none

/-- The text up to a closing quotation mark, and what follows it. -/
def readQuoted? : (fuel : Nat) → Reader (List Char)
  | 0, _ => none
  | _ + 1, [] => none
  | fuel + 1, c :: rest =>
    if c = '"' then some ([], rest)
    else if c = '\\' then do
      let (escaped, rest) ← readEscape? rest
      let (text, rest) ← readQuoted? fuel rest
      some (escaped :: text, rest)
    else if isVisible c then (readQuoted? fuel rest).map fun r => (c :: r.1, r.2)
    else none

/-- The text up to a closing apostrophe, and what follows it. -/
def readLiteral? : Reader (List Char)
  | [] => none
  | c :: rest =>
    if c = '\'' then some ([], rest)
    else if isVisible c then (readLiteral? rest).map fun r => (c :: r.1, r.2)
    else none

/-- The text after line breaks and spaces. -/
def skipBreaks : List Char → List Char
  | [] => []
  | '\r' :: '\n' :: rest => skipBreaks rest
  | c :: rest => if isSpace c || c = '\n' then skipBreaks rest else c :: rest

/-- The text after a backslash at the end of a line, which joins it to the next text; given what
follows the backslash. -/
def afterJoin? (text : List Char) : Option (List Char) :=
  (afterBreak? (skipSpace text)).map skipBreaks

/-- The text up to the closing marks of a string over several lines, and what follows them. -/
def readBlock? (mark : Char) (escapes : Bool) : (fuel : Nat) → Reader (List Char)
  | 0, _ => none
  | _ + 1, [] => none
  | fuel + 1, c :: rest =>
    if c = mark then
      let marks := (c :: rest).takeWhile (· = mark)
      let after := (c :: rest).drop marks.length
      if 5 < marks.length then none
      else if 3 ≤ marks.length then some (marks.drop 3, after)
      else (readBlock? mark escapes fuel after).map fun r => (marks ++ r.1, r.2)
    else if c = '\\' && escapes then
      match afterJoin? rest with
      | some rest => readBlock? mark escapes fuel rest
      | none => do
        let (escaped, rest) ← readEscape? rest
        let (text, rest) ← readBlock? mark escapes fuel rest
        some (escaped :: text, rest)
    else if isVisible c then (readBlock? mark escapes fuel rest).map fun r => (c :: r.1, r.2)
    else do
      let rest ← afterBreak? (c :: rest)
      let (text, rest) ← readBlock? mark escapes fuel rest
      some ('\n' :: text, rest)

/-- The text of a string over several lines, given what follows its opening marks. -/
def readBlockText? (mark : Char) (escapes : Bool) : Reader (List Char) := fun text =>
  readBlock? mark escapes (text.length + 1) ((afterBreak? text).getD text)

/-- A string on one line. -/
def readLineText? : Reader (List Char)
  | '"' :: rest => readQuoted? (rest.length + 1) rest
  | '\'' :: rest => readLiteral? rest
  | _ => none

/-- A string of any kind. -/
def readText? : Reader (List Char)
  | '"' :: '"' :: '"' :: rest => readBlockText? '"' true rest
  | '\'' :: '\'' :: '\'' :: rest => readBlockText? '\'' false rest
  | text => readLineText? text

end TerminalSession.Toml
