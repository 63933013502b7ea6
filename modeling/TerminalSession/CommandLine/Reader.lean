import TerminalSession.CommandLine.Verb

/-!
# Reading a command line

The arguments before a command's name are one *level*, those after it another. Options that are
common to all commands may stand at either, and at each of them once; what is said after the name
counts more. Arguments are read from left to right. An option's value may be attached to it or be
the next argument; in the second case it must not look like an option. After two dashes alone
nothing is an option.

Reading ends early, with the first thing wrong or with the first request for help or for the
version.
-/

namespace TerminalSession.CommandLine

set_option autoImplicit false

/-- What can be wrong with a command line. -/
inductive Fault where
  | unknownOption (text : List Char)
  | missingValue (option : Switch)
  | needlessValue (option : Switch)
  | badValue (option : Switch) (value : List Char)
  | repeated (option : Switch)
  | unexpectedOperand (text : List Char)
  | emptyOperand
  | missingOperand (verb : Verb)
  | unknownCommand (word : List Char)
  | missingCommand
  deriving DecidableEq, Repr

/-- What a user is told. -/
def Fault.message : Fault → String
  | .unknownOption text => "unexpected argument '" ++ String.ofList text ++ "'"
  | .missingValue option => s!"a value is required for --{option.long}"
  | .needlessValue option => s!"--{option.long} takes no value"
  | .badValue option value =>
    "invalid value '" ++ String.ofList value ++ s!"' for --{option.long}"
  | .repeated option => s!"--{option.long} cannot be used more than once"
  | .unexpectedOperand text => "unexpected argument '" ++ String.ofList text ++ "'"
  | .emptyOperand => "a path cannot be empty"
  | .missingOperand verb => s!"{verb.name} needs more arguments"
  | .unknownCommand word => "unknown command '" ++ String.ofList word ++ "'"
  | .missingCommand => "a command is required"

/-- Why reading a command line ends without a command to carry out. -/
inductive Stop where
  | help
  | version
  | fault (fault : Fault)
  deriving DecidableEq, Repr

/-- What has been read at one level. -/
structure Level where
  /-- The command whose arguments are read; none before its name. -/
  verb : Option Verb := none
  choices : List Choice := []
  operands : List (List Char) := []
  /-- The option whose value has to come next. -/
  pending : Option Switch := none
  /-- Whether nothing is an option any more. -/
  plain : Bool := false
  deriving DecidableEq, Repr

namespace Level

/-- The options that may stand at a level. -/
def switches (l : Level) : List Switch :=
  match l.verb with
  | some verb => verb.switches ++ Switch.common
  | none => .version :: Switch.common

/-- An option is given with a value. -/
def give (s : Switch) (value : List Char) (l : Level) : Except Stop Level :=
  match s with
  | .help => .error .help
  | .version => .error .version
  | s =>
    if !s.repeats && l.choices.any (·.switch = s) then .error (.fault (.repeated s))
    else
      match s.choice? value with
      | some choice => .ok { l with choices := l.choices ++ [choice] }
      | none => .error (.fault (.badValue s value))

/-- An option given by its long name, perhaps with a value attached. -/
def takeLong (text : List Char) (l : Level) : Except Stop Level :=
  let name := text.takeWhile (· ≠ '=')
  match l.switches.find? (·.long.toList = name), text.drop name.length with
  | none, _ => .error (.fault (.unknownOption ('-' :: '-' :: text)))
  | some s, [] => if s.takesValue then .ok { l with pending := some s } else l.give s []
  | some s, _ :: value =>
    if s.takesValue then l.give s value else .error (.fault (.needlessValue s))

/-- Options given by their letters. The first that needs a value takes what is left as its value. -/
def takeLetters : List Char → Level → Except Stop Level
  | [], l => .ok l
  | c :: rest, l =>
    match l.switches.find? (·.letter? = some c) with
    | none => .error (.fault (.unknownOption ['-', c]))
    | some s =>
      if s.takesValue then
        match rest with
        | [] => .ok { l with pending := some s }
        | '=' :: value => l.give s value
        | value => l.give s value
      else (l.give s []).bind (takeLetters rest)

/-- An argument that is no option. -/
def takeOperand (text : List Char) (l : Level) : Except Stop Level :=
  match l.verb with
  | none => .error (.fault (.unexpectedOperand text))
  | some verb =>
    if verb.most?.any (· ≤ l.operands.length) then .error (.fault (.unexpectedOperand text))
    else if text.isEmpty && verb.isPath l.operands.length then .error (.fault .emptyOperand)
    else .ok { l with operands := l.operands ++ [text] }

/-- Whether an argument looks like an option. A dash alone does not. -/
def isOption : List Char → Bool
  | '-' :: _ :: _ => true
  | _ => false

/-- The next argument. -/
def take (l : Level) (text : List Char) : Except Stop Level :=
  if l.plain then l.takeOperand text
  else
    match l.pending with
    | some s =>
      if isOption text then .error (.fault (.missingValue s))
      else { l with pending := none }.give s text
    | none =>
      match text with
      | ['-', '-'] => .ok { l with plain := true }
      | '-' :: '-' :: rest => l.takeLong rest
      | '-' :: c :: rest => l.takeLetters (c :: rest)
      | _ => l.takeOperand text

/-- Whether the next argument can only belong to this level: before a command's name, an argument
that cannot be that name. -/
def keeps (l : Level) (text : List Char) : Bool := l.plain || l.pending.isSome || isOption text

/-- A level read to its end: no option may still lack its value. -/
def done (l : Level) : Except Stop Level :=
  match l.pending with
  | some s => .error (.fault (.missingValue s))
  | none => .ok l

end Level

/-- The choices that count: those after the command's name, and of the others the options not
given there. -/
def combine (before after : List Choice) : List Choice :=
  after ++ before.filter fun choice => after.all (·.switch ≠ choice.switch)

/-- The command that two levels stand for. -/
def invocation? (verb : Verb) (before after : Level) : Option Command.Invocation := do
  let choices := combine before.choices after.choices
  let command ← verb.command? choices (after.operands.map String.ofList)
  some {
    settings := choices.findSome? fun
      | .settings path => some path
      | _ => none
    preset := .ofFlags (choices.contains .verbose) (choices.contains .debug)
      (choices.contains .trace) (choices.contains .quiet)
    overrides := choices.flatMap fun
      | .log overrides => overrides
      | _ => []
    format := (choices.findSome? fun
      | .logFormat format => some format
      | _ => none).getD .text
    command }

/-- Reads the arguments of a command, given those before its name. -/
def readCommand (before : Level) (verb : Verb) (arguments : List (List Char)) :
    Except Stop Command.Invocation := do
  let after ← arguments.foldlM Level.take { verb := some verb }
  match invocation? verb before (← after.done) with
  | some invocation => .ok invocation
  | none => .error (.fault (.missingOperand verb))

/-- The word that asks for help. -/
def helpWord : List Char := "help".toList

/-- Reads the words that help is asked for: at most one, the name of a command. -/
def readHelp : List (List Char) → Stop
  | [] => .help
  | [word] =>
    if word = helpWord || (Verb.ofName? word).isSome then .help else .fault (.unknownCommand word)
  | _ :: word :: _ => .fault (.unknownCommand word)

/-- Reads arguments after those that have been read before a command's name. -/
def readFrom (before : Level) : List (List Char) → Except Stop Command.Invocation
  | [] => before.done.bind fun _ => .error (.fault .missingCommand)
  | text :: rest =>
    if before.keeps text then (before.take text).bind fun l => readFrom l rest
    else if text = helpWord then .error (readHelp rest)
    else
      match Verb.ofName? text with
      | some verb => readCommand before verb rest
      | none => .error (.fault (.unknownCommand text))

/-- Reads a command line. -/
def read (arguments : List String) : Except Stop Command.Invocation :=
  readFrom {} (arguments.map String.toList)

end TerminalSession.CommandLine
