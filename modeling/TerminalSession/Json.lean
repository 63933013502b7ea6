import TerminalSession.Decimal

/-!
# JSON values

A JSON text as a tree that forgets spacing and nothing else: numerals keep their literal, objects
keep the order and repetition of their members, and strings keep an escaped half of a surrogate pair
that stands alone. What such a literal, repetition or half means is up to whoever reads a value out
of the tree (`Json.int?`, `Json.text?`, `Json.fields?`).
-/

namespace TerminalSession

set_option autoImplicit false

/-- An element of a JSON string. -/
inductive Json.Symbol where
  /-- A character. -/
  | char (c : Char)
  /-- An escaped surrogate that is not part of a pair. -/
  | half (code : Nat)
  deriving DecidableEq, Repr

/-- A JSON value. -/
inductive Json where
  | null
  | boolean (value : Bool)
  | number (literal : List Char)
  | string (symbols : List Json.Symbol)
  | array (items : List Json)
  | object (members : List (List Json.Symbol × Json))
  deriving Repr

namespace Json

/-- The symbols of a text. -/
def symbols (text : List Char) : List Symbol := text.map .char

/-- The string value of a text. -/
def ofText (text : List Char) : Json := .string (symbols text)

/-- The string value of a string. -/
def ofString (s : String) : Json := ofText s.toList

/-- The numeral of an integer. -/
def ofInt (n : Int) : Json := .number (Decimal.writeInt n)

/-- An object with the given members, in order. -/
def ofFields (fields : List (String × Json)) : Json :=
  .object (fields.map fun f => (symbols f.1.toList, f.2))

/-! ## Reading values out of the tree -/

/-- The text of symbols without lone surrogates. -/
def plain? : List Symbol → Option (List Char)
  | [] => some []
  | .char c :: rest => (plain? rest).map (c :: ·)
  | .half _ :: _ => none

/-- The text of a string value. -/
def text? : Json → Option (List Char)
  | .string s => plain? s
  | _ => none

/-- The string of a string value. -/
def string? (j : Json) : Option String := j.text?.map String.ofList

/-- The integer of a numeral that is written as one, with neither fraction nor exponent. A minus
sign before zero makes a number that no integer is. -/
def int? : Json → Option Int
  | .number ('-' :: digits) =>
    (Decimal.read? 10 digits).bind fun n => if n = 0 then none else some (-n)
  | .number digits => (Decimal.read? 10 digits).map Int.ofNat
  | _ => none

/-- An integer of 64 bits with a sign. -/
def int64? (j : Json) : Option Int :=
  j.int?.filter Decimal.isInt64

/-- A natural number of 64 bits. -/
def nat64? (j : Json) : Option Nat :=
  match j.int? with
  | some (.ofNat n) => if n < Decimal.nat64Limit then some n else none
  | _ => none

/-- The values of the members with a name. -/
def named (name : List Char) (members : List (List Char × Json)) : List Json :=
  (members.filter (·.1 = name)).map (·.2)

/-- The values of a record's fields, in the order of the names given. A record is an object that has
each field exactly once, whatever else it has, or an array of the fields' values alone. -/
def fields? (names : List String) : Json → Option (List Json)
  | .array items => if items.length = names.length then some items else none
  | .object members => do
    let members ← members.mapM fun m => (plain? m.1).map (·, m.2)
    names.mapM fun name =>
      match named name.toList members with
      | [value] => some value
      | _ => none
  | _ => none

/-- The name of a case without data: a string, or an object with that one key and no value. -/
def case? : Json → Option (List Char)
  | .string name => plain? name
  | .object [(name, .null)] => plain? name
  | _ => none

end Json

end TerminalSession
