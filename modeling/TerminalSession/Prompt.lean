import TerminalSession.Text.Blank

/-!
# Prompts

A session waits for its user when the end of its output reads like a prompt. The signatures are of
three sorts: a mark at the very end, a phrase anywhere, and two patterns with some freedom between
their parts (a yes-or-no question and a menu of yes and no on one line).
-/

namespace TerminalSession.Prompt

set_option autoImplicit false

open TerminalSession.Text

/-- Whether a test holds of the text from some position on. -/
def somewhere (test : List Char → Bool) : List Char → Bool
  | [] => test []
  | c :: rest => test (c :: rest) || somewhere test rest

/-- Whether the text contains the phrase. -/
def mentions (phrase : String) (text : List Char) : Bool :=
  somewhere phrase.toList.isPrefixOf text

/-- The marks that end a prompt: a chevron, a continuation mark and the dollar of a shell. -/
def marks : List Char := ['❯', '>', '$']

/-- A mark is the last character that is not blank. -/
def endsInMark (text : List Char) : Bool :=
  match text.reverse.dropWhile isBlank with
  | c :: _ => marks.contains c
  | [] => false

/-- The answers that a yes-or-no question offers. -/
def answers : List String := ["yes", "no", "y/n"]

/-- Whether the text offers an answer, perhaps in parentheses. -/
def offersAnswer (text : List Char) : Bool :=
  let offered := match text with
    | '(' :: rest => rest
    | _ => text
  answers.any (·.toList.isPrefixOf offered)

/-- A question mark and, after any blanks, an answer on offer. -/
def asksYesOrNo (text : List Char) : Bool :=
  somewhere (fun
    | '?' :: rest => offersAnswer (trimStart rest)
    | _ => false) text

/-- The two entries of a menu, in order and on one line. -/
def showsMenu (text : List Char) : Bool :=
  somewhere (fun here =>
    "(Y)es".toList.isPrefixOf here && mentions "(N)o" ((here.drop 5).takeWhile (· ≠ '\n'))) text

/-- Phrases that ask for the user wherever they stand. -/
def phrases : List String :=
  ["Do you want to proceed", "Press Enter to continue", "[Y/n]", "waiting for input",
   "waiting for response"]

/-- The text reads like a prompt. -/
def isPrompt (text : List Char) : Bool :=
  endsInMark text || asksYesOrNo text || showsMenu text || phrases.any (mentions · text)

end TerminalSession.Prompt
