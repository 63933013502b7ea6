import TerminalSession.Toml

/-!
# Tables of a TOML document

A document names its tables in headers and in dotted keys, in any order, and each table may be
defined once. While a document is read its tables are therefore kept with their *origin*, which says
how they came about and so what may still be done to them:

* a table from a header is complete, except for tables below it;
* one that a longer header only passed through may still get a header of its own;
* one made by dotted keys may be extended by dotted keys, and by headers below it.

A value, which includes a table written inline, is closed: nothing can be added to it.
-/

namespace TerminalSession.Toml

set_option autoImplicit false

/-- How a table came about. -/
inductive Origin where
  | header
  | passing
  | dotted
  deriving DecidableEq, Repr

/-- What a key of an unfinished table holds. -/
inductive Node where
  | closed (value : Toml)
  | table (origin : Origin) (members : List (List Char × Node))
  /-- The tables of a repeated header, oldest first. -/
  | series (origin : Origin) (earlier : List Node) (members : List (List Char × Node))

/-- The members of an unfinished table. -/
abbrev Members := List (List Char × Node)

/-- What a table holds under a key. -/
def lookup (key : List Char) (members : Members) : Option Node :=
  (members.find? (·.1 = key)).map (·.2)

/-- The members with what a key holds replaced, or the key added. -/
def put (key : List Char) (node : Node) (members : Members) : Members :=
  if members.any (·.1 = key) then
    members.map fun m => if m.1 = key then (key, node) else m
  else members ++ [(key, node)]

/-- A change to a table, which may not be allowed. -/
abbrev Edit := Origin → Members → Option (Origin × Members)

/-- Changes the table that a path leads to; tables on the way are made as needed. Dotted keys may
not lead through a table that has a header, and of a series it is the last table that is meant. -/
def edit (dotted : Bool) : (path : List (List Char)) → Edit → Edit
  | [], change, origin, members => change origin members
  | key :: path, change, origin, members =>
    match lookup key members with
    | none =>
      (edit dotted path change (if dotted then .dotted else .passing) []).map fun r =>
        (origin, put key (.table r.1 r.2) members)
    | some (.closed _) => none
    | some (.table inner below) =>
      if dotted && inner = .header then none
      else
        (edit dotted path change inner below).map fun r =>
          (origin, put key (.table r.1 r.2) members)
    | some (.series inner earlier below) =>
      (edit dotted path change inner below).map fun r =>
        (origin, put key (.series r.1 earlier r.2) members)

/-- Gives a key of a table a value. The table has to be the one that the key stands in: dotted keys
define members only of tables that dotted keys have made. -/
def assign (isDotted : Bool) (key : List Char) (value : Toml) : Edit := fun origin members =>
  if (origin = .dotted) ≠ isDotted then none
  else if (lookup key members).isSome then none
  else some (origin, put key (.closed value) members)

/-- Gives a dotted key of a table a value. -/
def assignPath (path : List (List Char)) (key : List Char) (value : Toml) : Edit :=
  edit true path (assign (!path.isEmpty) key value)

/-- Defines a table by a header. -/
def define (key : List Char) : Edit := fun origin members =>
  match lookup key members with
  | none => some (origin, put key (.table .header []) members)
  | some (.table .passing below) => some (origin, put key (.table .header below) members)
  | some _ => none

/-- Begins the next table of a series by a header. -/
def defineNext (key : List Char) : Edit := fun origin members =>
  match lookup key members with
  | none => some (origin, put key (.series .header [] []) members)
  | some (.series last earlier below) =>
    some (origin, put key (.series .header (earlier ++ [.table last below]) []) members)
  | some _ => none

mutual

/-- The value of a finished node. -/
def Node.value : Node → Toml
  | .closed value => value
  | .table _ members => .table (memberValues members)
  | .series _ earlier members => .array (nodeValues earlier ++ [.table (memberValues members)])

/-- The values of finished nodes. -/
def nodeValues : List Node → List Toml
  | [] => []
  | node :: nodes => node.value :: nodeValues nodes

/-- The values of a finished table's members. -/
def memberValues : List (List Char × Node) → List (List Char × Toml)
  | [] => []
  | (key, node) :: members => (key, node.value) :: memberValues members

end

end TerminalSession.Toml
