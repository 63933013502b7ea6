import TerminalSession.Settings
import TerminalSession.Text.Clean
import TerminalSession.Text.Lines
import TerminalSession.Text.Lowercase

/-!
# Summaries

A session can be summed up by someone else, who is given some of its text and replies with a title
or with things learned. The functions here bound what is given and tidy what comes back.
-/

namespace TerminalSession.Summary

set_option autoImplicit false

/-- The beginning of the output, from which a title is made; none if there is too little. -/
def titleContext (limits : Settings.Summary) (output : List Char) : Option (List Char) :=
  let words := Text.forSummary output
  if words.length < limits.titleMinimum then none else some (words.take limits.titleContext)

/-- The end of the transcript's text, from which learnings are drawn; none if there is too little.
-/
def learningsContext (limits : Settings.Summary) (text : List Char) : Option (List Char) :=
  if text.length < limits.learningsMinimum then none
  else some (text.drop (text.length - limits.learningsContext))

/-- The title in a reply: its first line, shortened. -/
def title (limits : Settings.Summary) (reply : List Char) : List Char :=
  let first := (Text.lines (Text.trim reply)).headD []
  (Text.trim first).take limits.titleLength

/-- The learnings in a reply, one a line. -/
def learnings (reply : List Char) : List (List Char) :=
  ((Text.lines reply).map Text.trim).filter (!·.isEmpty)

/-- The learnings that repeat none of those before them, given the lower-case forms already seen. -/
def distinctAfter (seen : List (List Char)) : List (List Char) → List (List Char)
  | [] => []
  | learning :: rest =>
    let key := Text.lower learning
    if seen.contains key then distinctAfter seen rest
    else learning :: distinctAfter (key :: seen) rest

/-- The learnings that repeat none of those before them, ignoring case. -/
def distinct (learnings : List (List Char)) : List (List Char) := distinctAfter [] learnings

/-- What stands before the learnings given to a new session. -/
def heading : String := "Engineering insights from previous sessions:\n"

/-- The latest learnings, for a new session to begin with; none if there are none. -/
def sessionContext (kept : Nat) (learnings : List (List Char)) : Option (List Char) :=
  let all := distinct learnings
  if all.isEmpty || kept = 0 then none
  else
    let latest := all.drop (all.length - kept)
    some (heading.toList ++ latest.flatMap fun learning => "- ".toList ++ learning ++ ['\n'])

end TerminalSession.Summary
