/-
Module: ClosureVtl.Files
Purpose: Files by their paths.
Main exports:
  ReadFailure, FileNode, Directory, Place, Place.walk, Place.read, Place.standard
-/

namespace ClosureVtl

/-!
A path is read from a place in a tree of directories: from the root if it begins
with a slash, and else from the directory one stands in.  Its names are followed
one by one, and the first that cannot be followed decides the failure.  Only then
is it asked whether the path ended at a file.

The limits on lengths count bytes.  The limit on the whole path holds before any
name is followed; the limit on a name holds when the name is looked up, so that a
directory missing in front of it is noticed first.
-/

/-- Why a file cannot be read. -/
inductive ReadFailure where
  | notFound
  /-- a name follows one that is no directory -/
  | notDirectory
  /-- the path ends at a directory -/
  | isDirectory
  | nameTooLong
  /-- the path has a character that no path can have -/
  | invalidPath
deriving DecidableEq, Repr, Inhabited

/-- The operating system's words for a failure. -/
def ReadFailure.text : ReadFailure → String
  | notFound => "No such file or directory (os error 2)"
  | notDirectory => "Not a directory (os error 20)"
  | isDirectory => "Is a directory (os error 21)"
  | nameTooLong => "File name too long (os error 36)"
  | invalidPath => "file name contained an unexpected NUL byte"

/-! ### Trees of directories -/

/-- What a name in a directory stands for. -/
inductive FileNode where
  | file (content : String)
  | directory (entries : List (String × FileNode))
deriving Inhabited

/-- The entries of a directory. -/
abbrev Directory := List (String × FileNode)

/-- A directory together with those around it, the innermost first. -/
structure Place where
  here : Directory
  outer : List Directory := []
deriving Inhabited

namespace Place

/-- The root of the tree. -/
def root (place : Place) : Place :=
  { here := place.outer.getLastD place.here }

/-- One directory up.  Above the root is the root. -/
def up (place : Place) : Place :=
  match place.outer with
  | [] => place
  | parent :: outer => { here := parent, outer }

/-- One directory down. -/
def down (place : Place) (entries : Directory) : Place :=
  { here := entries, outer := place.here :: place.outer }

/-! ### Following a path -/

/-- The most bytes of a name. -/
def nameLimit : Nat := 255

/-- The bytes that a path must stay below. -/
def pathLimit : Nat := 4096

/-- The names between the slashes of a path, empty ones included. -/
def names (path : String) : List String :=
  (path.toList.foldr
    (fun c names => if c = '/' then [] :: names else names.modifyHead (c :: ·)) [[]]).map
    String.ofList

/-- What a name stands for in the directory of a place. -/
def find (place : Place) (name : String) : Except ReadFailure FileNode :=
  if nameLimit < name.utf8ByteSize then .error .nameTooLong
  else
    match place.here.lookup name with
    | some node => .ok node
    | none => .error .notFound

/-- Follows names to a file.  A point and an empty name stay where they are, two
points go up. -/
def walk : List String → Place → Except ReadFailure String
  | [], _ => .error .isDirectory
  | name :: rest, place =>
    if name = "" ∨ name = "." then walk rest place
    else if name = ".." then walk rest place.up
    else
      match place.find name with
      | .error failure => .error failure
      | .ok (.directory entries) => walk rest (place.down entries)
      | .ok (.file content) => if rest.isEmpty then .ok content else .error .notDirectory

/-- Reads the file at a path. -/
def read (place : Place) (path : String) : Except ReadFailure String :=
  if path.toList.contains '\x00' then .error .invalidPath
  else if path.isEmpty then .error .notFound
  else if pathLimit ≤ path.utf8ByteSize then .error .nameTooLong
  else walk (names path) (if path.toList.head? = some '/' then place.root else place)

/-- Whatever follows a name that cannot be found, the failure is that of the name. -/
theorem walk_of_find_eq_error {place : Place} {name : String} {failure : ReadFailure}
    (hn : name ∉ ["", ".", ".."]) (h : place.find name = .error failure) (rest : List String) :
    walk (name :: rest) place = .error failure := by
  simp only [List.mem_cons, List.not_mem_nil, or_false, not_or] at hn
  simp [walk, hn, h]

/-! ### A bare system -/

/-- Directories without entries. -/
def emptyDirectories (names : List String) : Directory :=
  names.map fun name => (name, .directory [])

/-- The root of a bare system: the directories of the usual hierarchy, the null
device, and the list of users with its one entry. -/
def bareSystem : Directory :=
  emptyDirectories ["bin", "boot", "home", "lib", "media", "mnt", "opt", "proc", "root", "run",
      "sbin", "srv", "sys", "tmp"]
    ++ [("dev", .directory (("null", .file "") :: emptyDirectories ["shm"])),
      ("etc", .directory [("passwd", .file "root:x:0:0:root:/root:/bin/sh\n")]),
      ("usr", .directory (emptyDirectories ["bin", "include", "lib", "local", "sbin", "share", "src"])),
      ("var", .directory (emptyDirectories ["cache", "lib", "log", "spool", "tmp"]))]

/-- An empty working directory in a bare system. -/
def standard : Place := { here := [], outer := [bareSystem] }

end Place

end ClosureVtl
