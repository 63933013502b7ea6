/-!
# Lines

Two views of a text as lines. `lines` is for reading files: a line ends at a line feed, a carriage
return before it is dropped, and a text that ends with a line feed has no empty line after it.
`lastLines` is for looking at a screen: it cuts the text after a line feed and keeps the cut part
as it is, so an unfinished or empty last line counts.
-/

namespace TerminalSession.Text

set_option autoImplicit false

/-- The pieces between the occurrences of a separator, one more than there are occurrences. -/
def pieces (sep : Char) : List Char → List (List Char)
  | [] => [[]]
  | c :: rest =>
    if c = sep then [] :: pieces sep rest
    else match pieces sep rest with
      | [] => [[c]]
      | piece :: others => (c :: piece) :: others

/-- A line without the carriage return it ends with. -/
def dropCarriageReturn : List Char → List Char
  | [] => []
  | ['\r'] => []
  | c :: rest => c :: dropCarriageReturn rest

/-- The lines that the pieces between line feeds stand for: every piece but the last was ended by a
line feed, and the last is a line only if it holds something. -/
def linesOfPieces : List (List Char) → List (List Char)
  | [] => []
  | [piece] => if piece.isEmpty then [] else [piece]
  | piece :: others => dropCarriageReturn piece :: linesOfPieces others

/-- The lines of a text. -/
def lines (text : List Char) : List (List Char) := linesOfPieces (pieces '\n' text)

/-- The longest part of a reversed text that holds fewer than `n` line feeds. -/
def takeLines : Nat → List Char → List Char
  | 0, _ => []
  | _ + 1, [] => []
  | n + 1, c :: rest =>
    if c = '\n' then
      if n = 0 then [] else c :: takeLines n rest
    else c :: takeLines (n + 1) rest

/-- The last `n` lines of a text: its longest end with fewer than `n` line feeds. A line feed at the
very end is followed by one more, empty, line. -/
def lastLines (text : List Char) (n : Nat) : List Char := (takeLines n text.reverse).reverse

end TerminalSession.Text
