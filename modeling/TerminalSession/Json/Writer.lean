import TerminalSession.Json

/-!
# Writing JSON

The compact form: no spacing, and in strings an escape only where one is needed, which is for the
quote, the backslash and the characters below the space. A written text therefore never holds a line
break, and a file of one value a line can be split at its line feeds.
-/

namespace TerminalSession.Json

set_option autoImplicit false

/-- A hexadecimal escape of four digits. -/
def hexEscape (code : Nat) : List Char :=
  ['\\', 'u', Decimal.digitChar (code / 4096 % 16), Decimal.digitChar (code / 256 % 16),
   Decimal.digitChar (code / 16 % 16), Decimal.digitChar (code % 16)]

/-- A character inside a string. -/
def writeChar (c : Char) : List Char :=
  if c = '"' then ['\\', '"']
  else if c = '\\' then ['\\', '\\']
  else if c.toNat < 0x20 then
    if c.toNat = 0x08 then ['\\', 'b']
    else if c.toNat = 0x09 then ['\\', 't']
    else if c.toNat = 0x0A then ['\\', 'n']
    else if c.toNat = 0x0C then ['\\', 'f']
    else if c.toNat = 0x0D then ['\\', 'r']
    else hexEscape c.toNat
  else [c]

/-- A symbol inside a string. -/
def writeSymbol : Symbol → List Char
  | .char c => writeChar c
  | .half code => hexEscape code

/-- A string with its quotes. -/
def writeString (symbols : List Symbol) : List Char :=
  '"' :: symbols.flatMap writeSymbol ++ ['"']

/-- A list of written values with commas between them. -/
def commas : List (List Char) → List Char
  | [] => []
  | [one] => one
  | one :: others => one ++ ',' :: commas others

mutual

/-- The compact text of a value. -/
def write : Json → List Char
  | .null => "null".toList
  | .boolean true => "true".toList
  | .boolean false => "false".toList
  | .number literal => literal
  | .string symbols => writeString symbols
  | .array items => '[' :: commas (writeItems items) ++ [']']
  | .object members => '\x7b' :: commas (writeMembers members) ++ ['\x7d']

/-- The texts of an array's items. -/
def writeItems : List Json → List (List Char)
  | [] => []
  | item :: items => write item :: writeItems items

/-- The texts of an object's members. -/
def writeMembers : List (List Symbol × Json) → List (List Char)
  | [] => []
  | (name, value) :: members => (writeString name ++ ':' :: write value) :: writeMembers members

end

end TerminalSession.Json
