import TerminalSession.Json

/-!
# Reading JSON

`read?` accepts exactly the JSON grammar: one value with spaces, tabs, line feeds and carriage
returns around its parts. Each reader takes the value off the front of a text and gives the rest.
The readers for values call each other with less *fuel* every time; every second call takes a
character, so twice the length of the text is enough and `read?` never runs out.
-/

namespace TerminalSession.Json

set_option autoImplicit false

/-- The characters allowed between the parts of a value. -/
def isSpace (c : Char) : Bool := c = ' ' || c = '\t' || c = '\n' || c = '\r'

/-- The text after any spaces. -/
def skipSpace (text : List Char) : List Char := text.dropWhile isSpace

/-! ## Strings -/

/-- The character that an escape of one letter stands for. -/
def shortEscape? (c : Char) : Option Char :=
  if c = '"' || c = '\\' || c = '/' then some c
  else if c = 'b' then some (Char.ofNat 0x08)
  else if c = 'f' then some (Char.ofNat 0x0C)
  else if c = 'n' then some '\n'
  else if c = 'r' then some '\r'
  else if c = 't' then some '\t'
  else none

/-- The number of four hexadecimal digits. -/
def hex4? (a b c d : Char) : Option Nat := Decimal.read? 16 [a, b, c, d]

/-- The first half of a surrogate pair. -/
def isHighHalf (code : Nat) : Bool := 0xD800 ≤ code && code < 0xDC00

/-- The second half of a surrogate pair. -/
def isLowHalf (code : Nat) : Bool := 0xDC00 ≤ code && code < 0xE000

/-- What an escaped code unit is on its own. -/
def unit (code : Nat) : Symbol :=
  if isHighHalf code || isLowHalf code then .half code else .char (Char.ofNat code)

/-- Puts an escaped code unit in front of symbols: the halves of a pair become one character. -/
def joinUnit (code : Nat) : List Symbol → List Symbol
  | .half low :: rest =>
    if isHighHalf code && isLowHalf low then
      .char (Char.ofNat (0x10000 + (code - 0xD800) * 0x400 + (low - 0xDC00))) :: rest
    else unit code :: .half low :: rest
  | rest => unit code :: rest

/-- The symbols of a string up to its closing quote, given what follows the opening one. -/
def readSymbols? : List Char → Option (List Symbol × List Char)
  | [] => none
  | '\\' :: 'u' :: a :: b :: c :: d :: rest => do
    let code ← hex4? a b c d
    let (symbols, rest) ← readSymbols? rest
    some (joinUnit code symbols, rest)
  | '\\' :: e :: rest => do
    let c ← shortEscape? e
    let (symbols, rest) ← readSymbols? rest
    some (.char c :: symbols, rest)
  | c :: rest =>
    if c = '"' then some ([], rest)
    else if c = '\\' || c.toNat < 0x20 then none
    else (readSymbols? rest).map fun r => (.char c :: r.1, r.2)

/-! ## Numbers -/

/-- One or more digits, and the rest. -/
def readDigits? (text : List Char) : Option (List Char × List Char) :=
  let digits := text.takeWhile Decimal.isDigit
  if digits.isEmpty then none else some (digits, text.drop digits.length)

/-- The digits before the point. A zero stands alone. -/
def readWhole? : List Char → Option (List Char × List Char)
  | '0' :: c :: rest => if Decimal.isDigit c then none else some (['0'], c :: rest)
  | text => readDigits? text

/-- A fraction, if there is one. -/
def readFraction? : List Char → Option (List Char × List Char)
  | '.' :: rest => (readDigits? rest).map fun r => ('.' :: r.1, r.2)
  | text => some ([], text)

/-- The sign of an exponent, if there is one. -/
def readSign : List Char → List Char × List Char
  | [] => ([], [])
  | c :: rest => if c = '+' || c = '-' then ([c], rest) else ([], c :: rest)

/-- An exponent, if there is one. -/
def readExponent? : List Char → Option (List Char × List Char)
  | [] => some ([], [])
  | c :: rest =>
    if c = 'e' || c = 'E' then
      let sign := readSign rest
      (readDigits? sign.2).map fun r => (c :: sign.1 ++ r.1, r.2)
    else some ([], c :: rest)

/-- A numeral without its sign. -/
def readUnsigned? (text : List Char) : Option (List Char × List Char) := do
  let (whole, rest) ← readWhole? text
  let (fraction, rest) ← readFraction? rest
  let (exponent, rest) ← readExponent? rest
  some (whole ++ fraction ++ exponent, rest)

/-- A numeral. -/
def readNumber? : List Char → Option (List Char × List Char)
  | '-' :: rest => (readUnsigned? rest).map fun r => ('-' :: r.1, r.2)
  | text => readUnsigned? text

/-! ## Values -/

/-- A word with a fixed meaning. -/
def readWord? (word : String) (value : Json) (text : List Char) : Option (Json × List Char) :=
  if word.toList.isPrefixOf text then some (value, text.drop word.length) else none

mutual

/-- A value, and the rest of the text. -/
def readValue? : (fuel : Nat) → List Char → Option (Json × List Char)
  | 0, _ => none
  | fuel + 1, text =>
    match skipSpace text with
    | [] => none
    | c :: rest =>
      if c = '"' then (readSymbols? rest).map fun r => (.string r.1, r.2)
      else if c = '[' then
        match skipSpace rest with
        | ']' :: rest => some (.array [], rest)
        | _ => (readItems? fuel rest).map fun r => (.array r.1, r.2)
      else if c = '\x7b' then
        match skipSpace rest with
        | '\x7d' :: rest => some (.object [], rest)
        | _ => (readMembers? fuel rest).map fun r => (.object r.1, r.2)
      else if c = 'n' then readWord? "null" .null (c :: rest)
      else if c = 't' then readWord? "true" (.boolean true) (c :: rest)
      else if c = 'f' then readWord? "false" (.boolean false) (c :: rest)
      else (readNumber? (c :: rest)).map fun r => (.number r.1, r.2)

/-- One or more items, up to and with the closing bracket. -/
def readItems? : (fuel : Nat) → List Char → Option (List Json × List Char)
  | 0, _ => none
  | fuel + 1, text => do
    let (item, rest) ← readValue? fuel text
    match skipSpace rest with
    | ',' :: rest => (readItems? fuel rest).map fun r => (item :: r.1, r.2)
    | ']' :: rest => some ([item], rest)
    | _ => none

/-- One or more members, up to and with the closing brace. -/
def readMembers? : (fuel : Nat) → List Char → Option (List (List Symbol × Json) × List Char)
  | 0, _ => none
  | fuel + 1, text =>
    match skipSpace text with
    | '"' :: rest => do
      let (name, rest) ← readSymbols? rest
      match skipSpace rest with
      | ':' :: rest =>
        let (value, rest) ← readValue? fuel rest
        match skipSpace rest with
        | ',' :: rest => (readMembers? fuel rest).map fun r => ((name, value) :: r.1, r.2)
        | '\x7d' :: rest => some ([(name, value)], rest)
        | _ => none
      | _ => none
    | _ => none

end

/-- The value of a JSON text. -/
def read? (text : List Char) : Option Json :=
  match readValue? (2 * text.length + 1) text with
  | some (value, rest) => if (skipSpace rest).isEmpty then some value else none
  | none => none

end TerminalSession.Json
