import TerminalSession.Utf8

/-!
# The unfinished end of a chunk

A chunk of output can end inside an escape sequence or inside a character. `tailStart` is where that
end begins; the bytes from there on have to wait for the next chunk. Only the last escape of the
chunk can be unfinished, since a later escape ends whatever an earlier one began; a system command
that an escape and a backslash end is therefore finished by the escape that begins its terminator,
and the test below looks for a bell alone.
-/

namespace TerminalSession.Escape

set_option autoImplicit false

/-- The escape byte. -/
def escByte : UInt8 := 0x1B

/-- The bytes from the last escape on; none if there is no escape. -/
def fromLastEscape : Bytes → Bytes
  | [] => []
  | b :: rest =>
    match fromLastEscape rest with
    | [] => if b = escByte then b :: rest else []
    | found => found

/-- A parameter or intermediate byte of a control sequence. -/
def isIntermediate (b : UInt8) : Bool := 0x20 ≤ b && b ≤ 0x3F

/-- Whether the bytes after an escape, none of them an escape, finish what it begins. -/
def isFinished : Bytes → Bool
  | [] => false
  | kind :: body =>
    if kind = 0x5B then body.any fun b => !isIntermediate b
    else if kind = 0x5D then body.contains 0x07
    else if kind = 0x28 || kind = 0x29 then !body.isEmpty
    else true

/-- How many bytes at the end belong to an escape sequence that is not finished. -/
def unfinishedLength (bytes : Bytes) : Nat :=
  match fromLastEscape bytes with
  | [] => 0
  | escape :: body => if isFinished body then 0 else (escape :: body).length

/-- Where the unfinished end of a chunk begins: at an unfinished escape sequence, or at the
character cut off before it, or at the very end. -/
def tailStart (bytes : Bytes) : Nat :=
  let finished := bytes.length - unfinishedLength bytes
  finished - Utf8.cutCharacter (bytes.take finished)

end TerminalSession.Escape
