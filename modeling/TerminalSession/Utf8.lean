/-!
# UTF-8

Text arrives as bytes in chunks cut anywhere, and need not be text at all. `decode` reads any bytes:
what is not UTF-8 becomes a replacement character, one for each maximal part that could have begun a
character. It runs a machine over the bytes one at a time (`Stage`, `step`), so decoding a stream
in pieces is decoding the whole as long as the stage is carried over. `cutCharacter` measures the
character that the end of a chunk cuts off, so that those bytes can wait for the next chunk.
-/

namespace TerminalSession

set_option autoImplicit false

/-- A sequence of bytes. -/
abbrev Bytes := List UInt8

namespace Utf8

/-- Stands for bytes that are no character. -/
def replacement : Char := Char.ofNat 0xFFFD

/-- Where a decoder stands between two bytes. -/
inductive Stage where
  /-- Between characters. -/
  | ready
  /-- Inside a character of which the leading bits are known. The next byte has to lie between `low`
  and `high`, and `more` bytes follow it. -/
  | inside (code more : Nat) (low high : UInt8)
  deriving DecidableEq, Repr

/-- Reads the first byte of a character. The bounds on the second byte keep out the overlong forms,
the surrogates and what lies beyond the last code point. -/
def start (b : UInt8) : Stage × List Char :=
  if b < 0x80 then (.ready, [Char.ofNat b.toNat])
  else if b < 0xC2 then (.ready, [replacement])
  else if b < 0xE0 then (.inside (b.toNat - 0xC0) 0 0x80 0xBF, [])
  else if b = 0xE0 then (.inside 0 1 0xA0 0xBF, [])
  else if b = 0xED then (.inside 0xD 1 0x80 0x9F, [])
  else if b < 0xF0 then (.inside (b.toNat - 0xE0) 1 0x80 0xBF, [])
  else if b = 0xF0 then (.inside 0 2 0x90 0xBF, [])
  else if b < 0xF4 then (.inside (b.toNat - 0xF0) 2 0x80 0xBF, [])
  else if b = 0xF4 then (.inside 4 2 0x80 0x8F, [])
  else (.ready, [replacement])

/-- Reads one byte. A byte that cannot go on with the character begun ends it as a replacement and
is read afresh. -/
def step : Stage → UInt8 → Stage × List Char
  | .ready, b => start b
  | .inside code more low high, b =>
    if low ≤ b && b ≤ high then
      let code := code * 64 + (b.toNat - 0x80)
      match more with
      | 0 => (.ready, [Char.ofNat code])
      | more + 1 => (.inside code more 0x80 0xBF, [])
    else ((start b).1, replacement :: (start b).2)

/-- The text of the bytes that follow a stage; a character cut off by the end is a replacement. -/
def decodeFrom : Stage → Bytes → List Char
  | .ready, [] => []
  | .inside .., [] => [replacement]
  | stage, b :: rest => (step stage b).2 ++ decodeFrom (step stage b).1 rest

/-- The text of any bytes. -/
def decode (bytes : Bytes) : List Char := decodeFrom .ready bytes

/-- The bytes of a text. -/
def encode (text : List Char) : Bytes := text.flatMap String.utf8EncodeChar

/-- The text of bytes that are UTF-8 throughout: those that decoding and encoding give back. -/
def decode? (bytes : Bytes) : Option (List Char) :=
  let text := decode bytes
  if encode text = bytes then some text else none

/-- How many bytes a text takes. -/
def size : List Char → Nat
  | [] => 0
  | c :: rest => c.utf8Size + size rest

/-- The text without its first bytes, unless they end inside a character. -/
def drop? : (count : Nat) → List Char → Option (List Char)
  | 0, text => some text
  | _ + 1, [] => none
  | count + 1, c :: rest =>
    if c.utf8Size ≤ count + 1 then drop? (count + 1 - c.utf8Size) rest else none

/-- The first bytes of a text, unless they end inside a character. -/
def take? : (count : Nat) → List Char → Option (List Char)
  | 0, _ => some []
  | _ + 1, [] => none
  | count + 1, c :: rest =>
    if c.utf8Size ≤ count + 1 then (take? (count + 1 - c.utf8Size) rest).map (c :: ·) else none

/-- What lies between two places in a text, counted in bytes. There is nothing to give if one of
them lies beyond the text or inside a character. -/
def slice? (text : List Char) (start stop : Nat) : Option (List Char) := do
  take? (stop - start) (← drop? start text)

/-! ## Characters cut off at the end -/

/-- A byte that continues a character. -/
def isContinuation (b : UInt8) : Bool := 0x80 ≤ b && b < 0xC0

/-- How many bytes the character begun by a byte takes, judging by that byte alone. -/
def announcedSize (b : UInt8) : Nat :=
  if b < 0xC0 then 1 else if b < 0xE0 then 2 else if b < 0xF0 then 3 else 4

/-- Looks back over at most `reach` more bytes, given in reverse order, for the byte that begins the
last character; `seen` bytes lie behind it. -/
def cutBehind : (reach seen : Nat) → Bytes → Nat
  | 0, _, _ => 0
  | _ + 1, _, [] => 0
  | reach + 1, seen, b :: earlier =>
    if isContinuation b then cutBehind reach (seen + 1) earlier
    else if seen + 1 < announcedSize b then seen + 1 else 0

/-- The number of bytes at the end that begin a character and do not complete it, at most three. -/
def cutCharacter (bytes : Bytes) : Nat := cutBehind 3 0 bytes.reverse

end Utf8

end TerminalSession
