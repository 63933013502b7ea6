import TerminalSession.Utf8

/-!
# Files

What the program needs of a file system: reading a file whole and appending to one. `Directory` is a
directory tree in memory: its files and the directories in it, each by the names that lead to it.
Paths are resolved one name at a time, so a path through a file or a missing directory fails the way
a file system makes it fail. A path may also lead out of the tree, where nothing is to be found.
-/

namespace TerminalSession

set_option autoImplicit false

/-- Why a file could not be read or written. -/
inductive FileError where
  | notFound
  | notDirectory
  | isDirectory
  | nameTooLong
  /-- A path holds the character that ends paths. -/
  | nulInPath
  /-- The content was to be text and is not. -/
  | notText
  /-- Anything else, as the system words it. -/
  | other (wording : String)
  deriving DecidableEq, Repr

namespace FileError

/-- What a user is told. -/
def message : FileError → String
  | .notFound => "No such file or directory (os error 2)"
  | .notDirectory => "Not a directory (os error 20)"
  | .isDirectory => "Is a directory (os error 21)"
  | .nameTooLong => "File name too long (os error 36)"
  | .nulInPath => "file name contained an unexpected NUL byte"
  | .notText => "stream did not contain valid UTF-8"
  | .other wording => wording

end FileError

/-- A way of reading files: the content of each path, or why there is none. -/
abbrev Reading := String → Except FileError Bytes

/-- Reads a file that has to be text. -/
def Reading.text (read : Reading) (path : String) : Except FileError (List Char) := do
  match Utf8.decode? (← read path) with
  | some text => .ok text
  | none => .error .notText

/-- Whether a path leads anywhere, be it to something that cannot be read. -/
def Reading.finds (read : Reading) (path : String) : Bool :=
  match read path with
  | .error .notFound | .error .notDirectory | .error .nameTooLong | .error .nulInPath => false
  | .ok _ | .error .isDirectory | .error .notText | .error (.other _) => true

/-- A directory tree: its files and directories by the names that lead to them. -/
structure Directory where
  /-- The files and their content. -/
  files : List (List String × Bytes) := []
  /-- The directories below the tree's own. -/
  folders : List (List String) := []

namespace Directory

/-- What a path leads to. -/
inductive Place where
  | directory
  /-- A file that exists. -/
  | file (names : List String) (content : Bytes)
  /-- Nothing yet, in a directory that exists. -/
  | vacant (names : List String)

/-- The name that leads to the directory around a directory. -/
def parentName : String := ".."

/-- The names that lead to the directory which all others lie in. -/
def top : List String := ["/"]

/-- The content of the file with the given names. -/
def content? (d : Directory) (names : List String) : Option Bytes :=
  (d.files.find? (·.1 = names)).map (·.2)

/-- Whether a directory has the given names: the tree itself, one below it, or one around it. -/
def hasDirectory (d : Directory) (names : List String) : Bool :=
  names.all (· = parentName) || names = top || d.folders.contains names

/-- What the given names lead to, the directory around them taken as existing. -/
def look (d : Directory) (names : List String) : Place :=
  match d.content? names with
  | some content => .file names content
  | none => if d.hasDirectory names then .directory else .vacant names

/-- The names of the directory around a directory. -/
def parent (names : List String) : List String :=
  if names = top then top
  else if names.all (· = parentName) then names ++ [parentName]
  else names.dropLast

/-- The longest name a file can have, in bytes. -/
def longestName : Nat := 255

/-- The longest path, in bytes. -/
def longestPath : Nat := 4095

/-- Follows the parts of a path from a directory. An empty part or a dot stays in place, two dots go
up, and anything else has to be reached through a directory. -/
def follow (d : Directory) : (here : List String) → List String → Except FileError Place
  | here, [] => .ok (d.look here)
  | here, part :: parts =>
    match d.look here with
    | .file .. => .error .notDirectory
    | .vacant _ => .error .notFound
    | .directory =>
      if part = "" || part = "." then d.follow here parts
      else if part = parentName then d.follow (parent here) parts
      else if longestName < part.utf8ByteSize then .error .nameTooLong
      else d.follow (here ++ [part]) parts

/-- The directory that a path begins in, and its parts. -/
def split (path : String) : Except FileError (List String × List String) :=
  if path.contains (Char.ofNat 0) then .error .nulInPath
  else if path = "" then .error .notFound
  else if longestPath < path.utf8ByteSize then .error .nameTooLong
  else .ok (if path.startsWith "/" then top else [], path.splitOn "/")

/-- What a path leads to. -/
def locate (d : Directory) (path : String) : Except FileError Place := do
  let (start, parts) ← split path
  d.follow start parts

/-- The parts of a path that ends with slashes, up to the last name. -/
def beforeSlashes (parts : List String) : List String :=
  ((parts.reverse.dropWhile (· = "")).drop 1).reverse

/-- What a path leads to at which a file may be made. With a slash at the end it means a directory,
provided that there is one around it. -/
def locateNew (d : Directory) (path : String) : Except FileError Place := do
  let (start, parts) ← split path
  if path.endsWith "/" then
    match ← d.follow start (beforeSlashes parts) with
    | .directory => return .directory
    | .file .. => .error .notDirectory
    | .vacant _ => .error .notFound
  else d.follow start parts

/-- Reads a file. -/
def read (d : Directory) : Reading := fun path => do
  match ← d.locate path with
  | .file _ content => .ok content
  | .directory => .error .isDirectory
  | .vacant _ => .error .notFound

/-- The tree with a file's content replaced, or a file added. -/
def put (d : Directory) (names : List String) (content : Bytes) : Directory :=
  if (d.content? names).isSome then
    { d with files := d.files.map fun f => if f.1 = names then (names, content) else f }
  else { d with files := d.files ++ [(names, content)] }

/-- Appends to a file, which is made if its directory exists. -/
def append (d : Directory) (path : String) (bytes : Bytes) : Except FileError Directory := do
  match ← d.locateNew path with
  | .file names content => .ok (d.put names (content ++ bytes))
  | .vacant names => .ok (d.put names bytes)
  | .directory => .error .isDirectory

/-! ## Trees from paths -/

/-- The tree with a directory added. -/
def addFolder (d : Directory) (names : List String) : Directory :=
  if d.hasDirectory names then d else { d with folders := d.folders ++ [names] }

/-- The tree with a file given by the parts of a path, and with the directories it leads through. A
part that is no name cannot name the file. -/
def fill (content : Bytes) : (here : List String) → List String → Directory → Directory
  | _, [], d => d
  | here, part :: parts, d =>
    if part = "" || part = "." then fill content here parts d
    else if part = parentName then fill content (parent here) parts d
    else if parts.isEmpty then d.put (here ++ [part]) content
    else fill content (here ++ [part]) parts (d.addFolder (here ++ [part]))

/-- The tree of files given by their paths. Of two paths that lead to one file the later counts. -/
def ofPaths (files : List (String × Bytes)) : Directory :=
  files.foldl (fun d f => fill f.2 [] (f.1.splitOn "/") d) {}

end Directory

end TerminalSession
