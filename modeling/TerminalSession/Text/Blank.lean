import TerminalSession.Text.CharRange

/-!
# White space

A *blank* is a character with the Unicode property `White_Space`. Trimming, splitting into words
and the patterns for prompts and progress frames all use this one class, so a no-break space counts
and a zero-width space does not.
-/

namespace TerminalSession.Text

set_option autoImplicit false

/-- The ranges of the Unicode property `White_Space`. -/
def blanks : CharRanges :=
  [(0x9, 0xD), (0x20, 0x20), (0x85, 0x85), (0xA0, 0xA0), (0x1680, 0x1680), (0x2000, 0x200A),
   (0x2028, 0x2029), (0x202F, 0x202F), (0x205F, 0x205F), (0x3000, 0x3000)]

/-- A blank character. -/
def isBlank (c : Char) : Bool := inRanges blanks c

/-- The text without the blanks it starts with. -/
def trimStart (text : List Char) : List Char := text.dropWhile isBlank

/-- The text without the blanks it ends with. -/
def trimEnd (text : List Char) : List Char := (text.reverse.dropWhile isBlank).reverse

/-- The text without the blanks at either end. -/
def trim (text : List Char) : List Char := trimEnd (trimStart text)

/-- Single spaces in place of runs of blanks, and none at the ends. `started` holds once a
character has been kept, `pending` when blanks have been skipped since the last one kept. -/
def squeeze : List Char → (started pending : Bool) → List Char
  | [], _, _ => []
  | c :: rest, started, pending =>
    if isBlank c then squeeze rest started true
    else (if started && pending then [' ', c] else [c]) ++ squeeze rest true false

/-- The words of a text, the maximal runs without blanks, joined by single spaces. -/
def collapseBlanks (text : List Char) : List Char := squeeze text false false

end TerminalSession.Text
