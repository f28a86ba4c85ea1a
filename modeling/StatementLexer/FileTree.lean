import StatementLexer.Disk

namespace StatementLexer

/-!
# File trees

The files and directories that a program finds around its working directory, and
the way a path is followed through them.  A path is followed name by name from
the left, and the first name that cannot be followed decides the fault.  The
empty name (which two slashes in a row, or one at the end, leave) and `.` stay
where they are, `..` goes up, and all of them need a directory to start from, as
every name does.  Of the directories from the working directory upwards only
that they exist is known before anything is put into the tree.
-/

/-- The name of a file or directory within its parent. -/
abbrev Name := Bytes

/-- The directories that exist in any case. -/
inductive Anchor where
  /-- The directory that lies this many levels above the working directory. -/
  | working (levelsUp : Nat)
  /-- The topmost directory. -/
  | top
  deriving Repr, DecidableEq

/--
A place in a file tree: the names that lead to it from an anchor, the last one
first.
-/
structure Place where
  anchor : Anchor
  trail : List Name := []
  deriving Repr, DecidableEq

/-- What a place in a file tree holds. -/
inductive Entry where
  | file (content : Bytes)
  | directory
  deriving Repr, DecidableEq

/-- The entries of a file tree, the latest one first. -/
structure FileTree where
  entries : List (Place × Entry) := []
  deriving Repr, DecidableEq

namespace Place

/-- The byte that divides the names of a path. -/
def slash : UInt8 :=
  0x2F

/-- The name that stays in a directory. -/
def here : Name :=
  [0x2E]

/-- The name that leads to the parent of a directory. -/
def parent : Name :=
  [0x2E, 0x2E]

/-- The place one level up; nothing lies above the topmost directory. -/
def up (place : Place) : Place :=
  match place.trail, place.anchor with
  | _ :: upper, anchor => { anchor := anchor, trail := upper }
  | [], .working levelsUp => { anchor := .working (levelsUp + 1) }
  | [], .top => { anchor := .top }

/-- The place that a name leads to, whether or not there is anything. -/
def move
    (place : Place)
    (name : Name) : Place :=
  if name = [] ∨ name = here then
    place
  else if name = parent then
    place.up
  else
    { place with trail := name :: place.trail }

/--
Where following a path begins: a leading slash leads to the topmost directory.
-/
def origin (path : Bytes) : Place :=
  if path.head? = some slash then
    { anchor := .top }
  else
    { anchor := .working 0 }

end Place

namespace FileTree

/-- The longest name that a directory can hold. -/
def nameLimit : Nat :=
  255

/-- The length from which on a path is refused unseen. -/
def pathLimit : Nat :=
  4096

/--
What a place holds: an anchor is a directory, and the latest entry counts
elsewhere.
-/
def find?
    (tree : FileTree)
    (place : Place) : Option Entry :=
  if place.trail = [] then
    some .directory
  else
    (tree.entries.find? fun known => known.1 = place).map Prod.snd

/-- Puts an entry at a place. -/
def put
    (tree : FileTree)
    (place : Place)
    (entry : Entry) : FileTree where
  entries := (place, entry) :: tree.entries

/-- Makes a directory at a place that holds nothing. -/
def makeDirectory
    (tree : FileTree)
    (place : Place) : FileTree :=
  match tree.find? place with
  | some _ => tree
  | none => tree.put place .directory

/--
Puts an entry where names lead from a place, and makes the directories on the
way.
-/
def insertFrom
    (tree : FileTree)
    (place : Place)
    (entry : Entry) :
    List Name → FileTree
  | [] => tree.put place entry
  | name :: rest =>
      (tree.makeDirectory place).insertFrom (place.move name) entry rest

/-- Puts an entry at a path, and makes the directories on the way. -/
def insert
    (tree : FileTree)
    (path : Bytes)
    (entry : Entry) : FileTree :=
  tree.insertFrom (Place.origin path) entry (path.splitOn Place.slash)

/-- Follows one name; nothing leads on from a file. -/
def enter
    (tree : FileTree)
    (place : Place)
    (name : Name) : Except SystemFault Place :=
  match tree.find? place with
  | some (.file _) => .error .notDirectory
  | _ =>
      if nameLimit < name.length then
        .error .nameTooLong
      else
        match tree.find? (place.move name) with
        | some _ => .ok (place.move name)
        | none => .error .noSuchFile

/--
What opening gives at a place: a directory opens, but reading it fails at once.
-/
def openPlace
    (tree : FileTree)
    (place : Place) : OpenFile :=
  match tree.find? place with
  | some (.file content) => .readable content
  | _ => .unreadable [] (.system .isDirectory)

/-- Opens what a path leads to. -/
def openPath
    (tree : FileTree)
    (path : Bytes) : Except IoFault OpenFile :=
  if path.contains 0 then
    .error .zeroByteInName
  else if path = [] then
    .error (.system .noSuchFile)
  else if pathLimit ≤ path.length then
    .error (.system .nameTooLong)
  else
    match (path.splitOn Place.slash).foldlM tree.enter (Place.origin path) with
    | .error fault => .error (.system fault)
    | .ok place => .ok (tree.openPlace place)

/-- A file tree is a disk. -/
def disk (tree : FileTree) : Disk :=
  tree.openPath

end FileTree

end StatementLexer
