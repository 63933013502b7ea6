import TerminalSession.Settings.Outline
import TerminalSession.Toml.Reader

/-!
# Settings from TOML

A settings file is a TOML document. Its lists may be longer than the sections they stand for, and a
date in place of a section is a section without settings; a date in place of a number is no setting.
-/

namespace TerminalSession.Settings

set_option autoImplicit false

mutual

/-- The outline of a TOML value. -/
def tomlOutline : Toml → Outline
  | .integer value => .integer value
  | .array items => .list (tomlOutlineItems items)
  | .table members => .table (tomlOutlineMembers members)
  | .date _ => .table []
  | .string _ | .float _ | .boolean _ => .other

/-- The outlines of an array's items. -/
def tomlOutlineItems : List Toml → List Outline
  | [] => []
  | item :: items => tomlOutline item :: tomlOutlineItems items

/-- The outlines of a table's members. -/
def tomlOutlineMembers : List (List Char × Toml) → List (String × Outline)
  | [] => []
  | (key, value) :: members => (String.ofList key, tomlOutline value) :: tomlOutlineMembers members

end

/-- Reads settings from the text of a TOML document. -/
def ofToml? (text : List Char) : Option Settings := do
  ofOutline? true (.table (tomlOutlineMembers (← Toml.read? text)))

end TerminalSession.Settings
