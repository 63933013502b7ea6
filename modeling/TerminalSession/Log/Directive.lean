import TerminalSession.Log.Level
import TerminalSession.Log.Pattern
import TerminalSession.Utf8

/-!
# Directives

A directive gives the threshold for events of a target, where a target stands for all targets that
begin with it. It may be limited to events inside a span, and to events or spans that carry a field,
perhaps with a certain value: `target[span\x7bfield=value\x7d]=level`.

Blanks around a directive are let pass when it is read, but they are not dropped: its words are cut
out of the text with the blanks, at the places that they have in the text without them. So blanks
at the beginning shift every word, and blanks at the end belong to the last one. A cut that falls
inside a character breaks off the reading of the whole filter.
-/

namespace TerminalSession.Log

set_option autoImplicit false

/-- One directive of a filter. -/
structure Directive where
  /-- The beginning of the targets meant; all targets if there is none. -/
  target : Option (List Char) := none
  /-- The span that events have to lie in. -/
  span : Option (List Char) := none
  /-- The name of a field that events have to carry. -/
  field : Option (List Char) := none
  /-- The value that the field has to have. -/
  value : Option (List Char) := none
  threshold : Threshold := some .trace
  deriving DecidableEq, Repr

namespace Directive

/-- Why a directive cannot be read. -/
inductive Fault where
  /-- It is not written as a directive is. -/
  | malformed
  /-- A cut falls inside a character. -/
  | cutCharacter
  deriving DecidableEq, Repr

/-! ## Values -/

/-- Whether a text is the exponent of a number, or nothing. -/
def isExponent : List Char → Bool
  | [] => true
  | e :: text =>
    let digits := if text.head? = some '+' || text.head? = some '-' then text.drop 1 else text
    (e = 'e' || e = 'E') && !digits.isEmpty && digits.all Decimal.isDigit

/-- Whether a text is a number without a sign: digits, with a point among or beside them, and an
exponent. -/
def isUnsigned (text : List Char) : Bool :=
  let whole := text.takeWhile Decimal.isDigit
  match text.drop whole.length with
  | '.' :: text =>
    let fraction := text.takeWhile Decimal.isDigit
    !(whole.isEmpty && fraction.isEmpty) && isExponent (text.drop fraction.length)
  | text => !whole.isEmpty && isExponent text

/-- Whether a text is a number: with or without a sign, infinity, or no number at all. -/
def isNumber (text : List Char) : Bool :=
  let text := if text.head? = some '+' || text.head? = some '-' then text.drop 1 else text
  isUnsigned text || isNamed "inf" text || isNamed "infinity" text || isNamed "nan" text

/-- Whether a text can be asked for as a value: a number, or else a pattern. -/
def isValue (text : List Char) : Bool := isNumber text || Pattern.isPattern text

/-! ## Reading a directive -/

/-- A character that a target may begin with. -/
def isTargetStart (c : Char) : Bool :=
  Text.isAlphanumeric c || c = '-' || c = ':' || c = '_'

/-- Cuts out of a text what lies between two places, counted in bytes. -/
def cut (text : List Char) (start stop : Nat) : Except Fault (List Char) :=
  match Utf8.slice? text start stop with
  | some word => .ok word
  | none => .error .cutCharacter

/-- A directive with its threshold, given the text that it is cut from, and what follows its target
and span, with its place: an equals sign and a level, or nothing, which lets everything through. -/
def withThreshold (whole : List Char) (place : Nat) (d : Directive) :
    List Char → Except Fault Directive
  | [] => .ok d
  | '=' :: _ => do
    let level ← cut whole (place + 1) (Utf8.size whole)
    if level.isEmpty then .ok d
    else
      match Threshold.ofText? level with
      | some threshold => .ok { d with threshold }
      | none => .error .malformed
  | _ => .error .malformed

/-- A directive that asks for a field, given what is written of it: a name, and perhaps a value. -/
def asking (d : Directive) (text : List Char) : Except Fault Directive :=
  if text.isEmpty then .error .malformed
  else
    let d := { d with field := some (text.takeWhile (· ≠ '=')) }
    match text.dropWhile (· ≠ '=') with
    | [] => .ok d
    | _ :: text =>
      let value := text.takeWhile (· ≠ '=')
      if isValue value then .ok { d with value := some value } else .error .malformed

/-- A directive with its field, given the text that it is cut from, and what follows the opening
brace, with its place. -/
def withField (whole : List Char) (place : Nat) (d : Directive) (text : List Char) :
    Except Fault Directive := do
  let content := text.takeWhile (· ≠ '\x7d')
  match text.drop content.length with
  | [] => .error .malformed
  | _ :: text =>
    let stop := place + Utf8.size content
    let d ← d.asking (← cut whole place stop)
    match text with
    | ']' :: rest => d.withThreshold whole (stop + 2) rest
    | _ => .error .malformed

/-- A directive with its span, given the text that it is cut from, and what follows the opening
bracket, with its place. -/
def withSpan (whole : List Char) (place : Nat) (d : Directive) (text : List Char) :
    Except Fault Directive := do
  let name := text.takeWhile fun c => c ≠ ']' && c ≠ '\x7b'
  let stop := place + Utf8.size name
  match text.drop name.length with
  | ']' :: rest =>
    let d := { d with span := some (← cut whole place stop) }
    d.withThreshold whole (stop + 1) rest
  | '\x7b' :: rest =>
    let span ← cut whole place stop
    let d := if span.isEmpty then d else { d with span := some span }
    d.withField whole (stop + 1) rest
  | _ => .error .malformed

/-- The directive that a word comes to: a level, or else a target. -/
def ofWord (word : List Char) : Directive :=
  match Threshold.ofText? word with
  | some threshold => { threshold }
  | none => { target := some word }

/-- Reads a directive, which may have blanks around it. -/
def read (whole : List Char) : Except Fault Directive :=
  match Text.trim whole with
  | [] => .error .malformed
  | '[' :: rest => ({} : Directive).withSpan whole 1 rest
  | c :: rest =>
    if !isTargetStart c then .error .malformed
    else
      let word := (c :: rest).takeWhile fun c => c ≠ '=' && c ≠ '['
      let stop := Utf8.size word
      match (c :: rest).drop word.length with
      | [] => .ok (ofWord whole)
      | '[' :: rest => do
        let d : Directive := { target := some (← cut whole 0 stop) }
        d.withSpan whole (stop + 1) rest
      | rest => do
        let d : Directive := { target := some (← cut whole 0 stop) }
        d.withThreshold whole stop rest

/-! ## What a directive applies to -/

/-- Whether a directive asks neither for a span nor for a field's value. -/
def isStatic (d : Directive) : Bool := d.span.isNone && d.value.isNone

/-- Whether a directive applies to events of a target that carry the given fields. -/
def applies (target : List Char) (fields : List (List Char)) (d : Directive) : Bool :=
  d.isStatic && (d.target.getD []).isPrefixOf target && d.field.all fields.contains

/-- How long a directive's target is; to have none is less than any. -/
def targetSize (d : Directive) : Nat :=
  match d.target with
  | some target => Utf8.size target + 1
  | none => 0

/-- Whether the second directive gives way to the first, which follows it. -/
def outranks (first second : Directive) : Bool :=
  if targetSize first = targetSize second then
    match first.field, second.field with
    | some a, some b => !decide (a < b)
    | some _, none | none, none => true
    | none, some _ => false
  else targetSize second < targetSize first

end Directive

end TerminalSession.Log
