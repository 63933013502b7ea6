import TerminalSession.Failure
import TerminalSession.Json.Reader
import TerminalSession.Json.Writer
import TerminalSession.Text.Lowercase
import TerminalSession.Transcript.Snippet

/-!
# Searching transcripts

A search compares texts character by character in lower case, so the place of a match is a place in
the transcript as it is stored, even where lower-casing changes how many bytes or characters a text
takes. A match has to begin and end between characters.
-/

namespace TerminalSession

set_option autoImplicit false

/-- A place where a transcript was found to hold what was searched for. -/
structure Match where
  /-- The transcript. -/
  source : String
  /-- Where the match begins, in bytes. -/
  offset : Nat
  /-- The match with some text around it, on one line. -/
  snippet : String
  deriving DecidableEq, Repr

namespace Match

/-- The JSON form of a match. -/
def toJson (m : Match) : Json :=
  .ofFields [("source", .ofString m.source), ("offset", .ofInt m.offset),
    ("snippet", .ofString m.snippet)]

/-- Reads a match. Its offset has to fit 64 bits. -/
def ofJson? (j : Json) : Option Match :=
  match j.fields? ["source", "offset", "snippet"] with
  | some [source, offset, snippet] => do
    some { source := ← source.string?, offset := ← offset.nat64?, snippet := ← snippet.string? }
  | _ => none

/-- A match on one line. -/
def line (m : Match) : String :=
  m.source ++ ":" ++ String.ofList (Decimal.write m.offset) ++ ": " ++ m.snippet

end Match

namespace Transcript

/-- What is left of a list after the front part given. -/
def dropFront? : (front : List Char) → List Char → Option (List Char)
  | [], rest => some rest
  | _ :: _, [] => none
  | a :: front, b :: rest => if a = b then dropFront? front rest else none

/-- How many bytes at the front of the text match, if its lower-case form begins with the sought
text and that ends where a character ends. -/
def matchLength? (sought : List Char) : List Char → Option Nat
  | [] => none
  | c :: rest =>
    match dropFront? (Text.lowerChar c) sought with
    | none => none
    | some [] => some c.utf8Size
    | some left => (matchLength? left rest).map (c.utf8Size + ·)

/-- The first place in the text, past so many bytes, that matches a sought text in lower case: its
offset and its length in bytes. -/
def findFrom (sought : List Char) : (offset : Nat) → List Char → Option (Nat × Nat)
  | _, [] => none
  | offset, c :: rest =>
    match matchLength? sought (c :: rest) with
    | some length => some (offset, length)
    | none => findFrom sought (offset + c.utf8Size) rest

/-- The first place in a text that matches a query, ignoring case. -/
def find (text query : List Char) : Option (Nat × Nat) := findFrom (Text.lowerEach query) 0 text

/-- How many characters a search shows on either side of a match. -/
def searchContext : Nat := 100

/-- The first match in a stored transcript. There is none for a query that is empty. -/
def firstMatch (source : String) (data : Bytes) (query : List Char) : Option Match :=
  let text := Utf8.decode data
  (find text query).map fun (offset, length) =>
    { source, offset, snippet := String.ofList (snippet text offset length searchContext) }

/-- Searches a stored transcript. -/
def search (source : String) (data : Bytes) (query : List Char) : Except Failure (Option Match) :=
  if query.isEmpty then .error .emptyQuery else .ok (firstMatch source data query)

end Transcript

end TerminalSession
