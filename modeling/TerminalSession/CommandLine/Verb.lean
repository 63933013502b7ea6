import TerminalSession.CommandLine.Switch

/-!
# Names of commands

The word that names a command, the options that belong to it, and its operands: the arguments that
are no options. All operands are paths, but for the query of a search.
-/

namespace TerminalSession.CommandLine

set_option autoImplicit false

/-- The word that names a command. -/
inductive Verb where
  | watch
  | text
  | search
  | context
  | insights
  deriving DecidableEq, Repr

namespace Verb

/-- The words as they are written. -/
def name : Verb → String
  | watch => "watch"
  | text => "show"
  | search => "search"
  | context => "context"
  | insights => "insights"

/-- All words, in the order in which they are explained. -/
def all : List Verb := [watch, text, search, context, insights]

/-- The command that a word names. -/
def ofName? (word : List Char) : Option Verb := all.find? fun verb => verb.name.toList = word

/-- The options of a command alone. -/
def switches : Verb → List Switch
  | watch => [.name, .transcript, .input, .tee]
  | context => [.kind]
  | text | search | insights => []

/-- How many operands a command takes at most, if there is a bound. -/
def most? : Verb → Option Nat
  | watch => some 0
  | text | context => some 1
  | search | insights => none

/-- Whether an operand in a certain place, counted from zero, has to be a path. -/
def isPath : Verb → Nat → Bool
  | search, 0 => false
  | _, _ => true

/-- The command with its options and operands, if there are enough of these. -/
def command? (choices : List Choice) : Verb → List String → Option Command
  | watch, [] =>
    let named := choices.findSome? fun
      | .name name => some name
      | _ => none
    some (.watch {
      name := named.getD ({} : Watch.Options).name
      transcript := choices.findSome? fun
        | .transcript path => some path
        | _ => none
      input := choices.findSome? fun
        | .input path => some path
        | _ => none
      tee := choices.contains .tee })
  | text, [path] => some (.ask (.text path))
  | search, query :: path :: paths => some (.ask (.search query (path :: paths)))
  | context, [path] =>
    let kind := choices.findSome? fun
      | .kind kind => some kind
      | _ => none
    some (.ask (.context (kind.getD .title) path))
  | insights, path :: paths => some (.ask (.insights (path :: paths)))
  | _, _ => none

end Verb

end TerminalSession.CommandLine
