import TerminalSession.Command.Failure
import TerminalSession.Log.Line
import TerminalSession.Summary
import TerminalSession.Transcript
import TerminalSession.Transcript.Search

/-!
# The archive

Stored transcripts and stored learnings, each in a file of its own, and what can be asked of them:
the text of a transcript, a search over many, what a summary of one is made from, and the learnings
that a new session begins with. A search passes over files that cannot be read; everything else
fails on the first of them.
-/

namespace TerminalSession.Archive

set_option autoImplicit false

/-- The bytes of a transcript. -/
def transcript (read : Reading) (path : String) : Except Command.Failure Bytes :=
  (read path).mapError (Command.Failure.transcript path)

/-- The text of a transcript. -/
def text (read : Reading) (path : String) : Except Command.Failure (List Char) :=
  (transcript read path).map Transcript.text

/-- What a search finds in one transcript. -/
structure Finding where
  path : String
  result : Except FileError (Option Match)

/-- Searches a transcript for a text that is not empty. -/
def searchOne (read : Reading) (query : List Char) (path : String) : Finding :=
  { path, result := (read path).map fun data => Transcript.firstMatch path data query }

/-- Searches transcripts in order. -/
def search (read : Reading) (query : String) (paths : List String) :
    Except Command.Failure (List Finding) :=
  if query.isEmpty then .error .emptyQuery
  else .ok (paths.map (searchOne read query.toList))

/-- The match found in a transcript, if it could be read and there is one. -/
def Finding.match? (f : Finding) : Option Match :=
  match f.result with
  | .ok found => found
  | .error _ => none

/-- The matches of a search. -/
def hits (findings : List Finding) : List Match := findings.filterMap Finding.match?

/-- What a summary can be made from. -/
inductive Context where
  /-- The beginning of the output, for a title. -/
  | title
  /-- The end of the transcript, for learnings. -/
  | learnings
  deriving DecidableEq, Repr

/-- What a summary of a text is made from, if there is enough of it. -/
def Context.ofText (limits : Settings.Summary) : Context → List Char → Option (List Char)
  | .title => Summary.titleContext limits
  | .learnings => Summary.learningsContext limits

/-- What a summary of a transcript is made from. -/
def context (read : Reading) (limits : Settings.Summary) (kind : Context) (path : String) :
    Except Command.Failure (Option (List Char)) :=
  (text read path).map (kind.ofText limits)

/-- The learnings in a file, one a line. -/
def learnings (read : Reading) (path : String) : Except Command.Failure (List (List Char)) :=
  ((read.text path).mapError (Command.Failure.learnings path)).map Summary.learnings

/-- The learnings that a new session begins with, from files in order of age, the oldest first. -/
def insights (read : Reading) (limits : Settings.Summary) (paths : List String) :
    Except Command.Failure (Option (List Char)) := do
  let all ← paths.mapM (learnings read)
  .ok (Summary.sessionContext limits.learningsKept all.flatten)

/-! ## Questions -/

/-- What a user can ask of the archive. -/
inductive Question where
  /-- The text of a transcript. -/
  | text (path : String)
  | search (query : String) (paths : List String)
  | context (kind : Context) (path : String)
  | insights (paths : List String)
  deriving DecidableEq, Repr

/-- The files that a question is about. -/
def Question.paths : Question → List String
  | .text path | .context _ path => [path]
  | .search _ paths | .insights paths => paths

/-- What a user gets to see, and what is logged. -/
structure Answer where
  output : List Char := []
  log : List Log.Line := []
  deriving DecidableEq, Repr

/-- The lines on the damaged lines of a transcript. -/
def damageLog (data : Bytes) : List Log.Line :=
  List.replicate (Transcript.damagedLines data)
    { level := .debug, target := Log.Line.transcript, message := "Skipping malformed line" }

/-- The line on a transcript that a search passes over. -/
def Finding.line? (f : Finding) : Option Log.Line :=
  match f.result with
  | .ok _ => none
  | .error error =>
    some { level := .debug, target := Log.Line.command,
           message := "Skipping transcript: " ++ (Failure.file error).message,
           fields := [("path", f.path)] }

/-- A text on lines of its own. -/
def onLine (text : List Char) : List Char := text ++ ['\n']

/-- A warning that there is nothing to show. -/
def nothing (message : String) : Answer :=
  { log := [{ level := .warn, target := Log.Line.command, message }] }

/-- What is said of a transcript that is too short. -/
def Context.tooShort : Context → String
  | .title => "Transcript too short to build Title context"
  | .learnings => "Transcript too short to build Learnings context"

/-- Answers a question. -/
def answer (read : Reading) (limits : Settings.Summary) :
    Question → Except Command.Failure Answer
  | .text path =>
    (transcript read path).map fun data =>
      { output := Transcript.text data, log := damageLog data }
  | .search query paths =>
    (search read query paths).map fun findings =>
      { output := (hits findings).flatMap fun hit => onLine hit.line.toList
        log := findings.filterMap Finding.line? }
  | .context kind path =>
    (transcript read path).map fun data =>
      let shown : Answer :=
        match kind.ofText limits (Transcript.text data) with
        | some text => { output := onLine text }
        | none => nothing kind.tooShort
      { shown with log := damageLog data ++ shown.log }
  | .insights paths =>
    (insights read limits paths).map fun
      | some text => { output := text }
      | none => nothing "No learnings found"

end TerminalSession.Archive
