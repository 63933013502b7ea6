/-!
# Sets of characters as ranges

A property of characters is tabulated as a list of ranges of code points, both ends included.
`inRanges` is the membership test every table of this library goes through.
-/

namespace TerminalSession.Text

set_option autoImplicit false

/-- A set of code points: the union of closed ranges. -/
abbrev CharRanges := List (Nat × Nat)

/-- Whether the character's code point lies in one of the ranges. -/
def inRanges (ranges : CharRanges) (c : Char) : Bool :=
  ranges.any fun r => r.1 ≤ c.toNat && c.toNat ≤ r.2

end TerminalSession.Text
