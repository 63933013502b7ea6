import TerminalSession.Log.Directive
import TerminalSession.Log.Override
import TerminalSession.Text.Lines

/-!
# Log filters

A filter is a list of directives, written with commas between them.

Of the directives that apply to an event the most specific one decides: the one with the longest
target, then one that asks for a field, then the one whose field comes last in order, and of equals
the last. An event that no directive applies to is not let through. Nothing in this program opens a
span, so directives that ask for one, or for a field's value, apply to no event; they still count
for how detailed the filter may be at most.
-/

namespace TerminalSession.Log

set_option autoImplicit false

/-- A filter: its directives in order. -/
structure Filter where
  directives : List Directive
  deriving DecidableEq, Repr

namespace Filter

/-- Reads a filter. Nothing between two commas is no directive, and a filter without directives lets
errors through. -/
def read (text : List Char) : Except Directive.Fault Filter := do
  let directives ← ((Text.pieces ',' text).filter (!·.isEmpty)).mapM Directive.read
  if directives.isEmpty then .ok { directives := [{ threshold := some .error }] }
  else .ok { directives }

/-- The first filter among texts, malformed ones aside; without any, information is let through. A
text whose reading breaks off gives no filter. -/
def ofTexts? : List (List Char) → Option Filter
  | [] => some { directives := [{ threshold := some .info }] }
  | text :: texts =>
    match read text with
    | .ok filter => some filter
    | .error .malformed => ofTexts? texts
    | .error .cutCharacter => none

/-- The most specific of directives. -/
def mostSpecific : List Directive → Option Directive
  | [] => none
  | d :: rest =>
    match mostSpecific rest with
    | some best => if best.outranks d then some best else some d
    | none => some d

/-- The threshold for events of a target that carry the given fields. -/
def threshold (f : Filter) (target : List Char) (fields : List (List Char)) : Threshold :=
  ((mostSpecific (f.directives.filter (Directive.applies target fields))).map (·.threshold)).join

/-- The most detailed level that any directive lets through; values of fields are only known once
all is seen. -/
def maxLevel (f : Filter) : Threshold :=
  if f.directives.any (·.value.isSome) then some .trace
  else Level.all.reverse.find? fun level => f.directives.any (·.threshold.admits level)

end Filter

end TerminalSession.Log
