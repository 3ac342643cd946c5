import TemplateLint.Files.Path

/-!
# File trees

A `Node` is a file with its bytes, or a directory with its entries. A `FileSystem` is a root
directory and the place of the working directory in it. `FileSystem.resolve` follows a path as an
operating system does, one name after the other: two dots lead to the directory above, and a path
that leads through something that does not exist fails there, whatever comes after.
`FileSystem.addFile` and `FileSystem.addDirectory` build file systems up from `FileSystem.blank`;
what they add stands where its path leads.

## Limits that are left out

A tree has no permissions, no links and no failing devices, so a file can always be read and a
directory always be listed; and directories may stand in one another to any depth. What is said
about failures, here and in all that is built on trees, is said of such trees: there is no other
cause than those of `AccessError`.

Three more limits of machines are left out wherever they would matter. Offsets are not bounded by a
word of 64 bits; whole numbers are read and written with any number of digits, also with more than
4300; and texts are made of characters, none of which is a lone surrogate.
-/

namespace TemplateLint.Files

/-- A file or a directory. -/
inductive Node where
  | file (bytes : List UInt8)
  | directory (entries : List (String × Node))

namespace Node

/-- A directory without entries. -/
def empty : Node := .directory []

/-- The entries of a directory; a file has none. -/
def entries : Node → List (String × Node)
  | .file _ => []
  | .directory entries => entries

/-- The entries with the one of a name replaced, or added at the end if there is none. -/
def setEntry (name : String) (node : Node) : List (String × Node) → List (String × Node)
  | [] => [(name, node)]
  | (known, old) :: later =>
    if known = name then (known, node) :: later else (known, old) :: setEntry name node later

/-- The tree after a change to the node at some names. Directories on the way are made as needed,
and a node that was not there yet is an empty directory before the change. -/
def modify (change : Node → Node) : List String → Node → Node
  | [], node => change node
  | name :: names, node =>
    let child := (node.entries.lookup name).getD empty
    .directory (setEntry name (modify change names child) node.entries)

/-- The tree with a file at some names. -/
def addFile (names : List String) (bytes : List UInt8) (tree : Node) : Node :=
  tree.modify (fun _ => .file bytes) names

/-- The tree with a directory at some names; one that is there is kept. -/
def addDirectory (names : List String) (tree : Node) : Node :=
  tree.modify id names

/-- The place that a name leads to from a place, both given by names from the root on. Above the
root is the root. -/
def step (place : List String) (name : String) : List String :=
  if name = ".." then place.dropLast else place ++ [name]

/-- The place that names lead to from the root, through directories that all exist. -/
def placeOf (names : List String) : List String :=
  names.foldl step []

/-- The tree with every directory that names lead through from a place, the place and the end
included. -/
def makeWay (place : List String) : List String → Node → Node
  | [], tree => tree.addDirectory place
  | name :: names, tree => makeWay (step place name) names (tree.addDirectory place)

mutual

/-- The names that lead to each file in a tree. -/
def filePaths : Node → List (List String)
  | .file _ => [[]]
  | .directory entries => entryPaths entries

/-- The names that lead to each file below the entries of a directory. -/
def entryPaths : List (String × Node) → List (List String)
  | [] => []
  | (name, node) :: later => (filePaths node).map (name :: ·) ++ entryPaths later

end

mutual

/-- The names that lead to each directory in a tree, the tree itself included. -/
def directoryPaths : Node → List (List String)
  | .file _ => []
  | .directory entries => [] :: entryDirectories entries

/-- The names that lead to each directory below the entries of a directory. -/
def entryDirectories : List (String × Node) → List (List String)
  | [] => []
  | (name, node) :: later => (directoryPaths node).map (name :: ·) ++ entryDirectories later

end

end Node

/-! ### Following a path -/

/-- Why a path leads nowhere. In a tree there are no other causes; in particular none for a place
that may not be entered. -/
inductive AccessError where
  /-- The path holds a NUL. -/
  | embeddedNul
  /-- The path, or one of its names, has too many bytes. -/
  | nameTooLong
  | notFound
  /-- The path leads through a file. -/
  | notDirectory
  deriving DecidableEq

/-- The most bytes that a name can have. -/
def maxNameBytes : Nat := 255

/-- A path of this many bytes or more is too long. -/
def pathBytesLimit : Nat := 4096

/-- Whether a path, as it is written, has too many bytes to be followed. -/
def Path.isTooLong (path : Path) : Bool :=
  decide (pathBytesLimit ≤ path.display.utf8ByteSize)

/-- The node that names lead to from a node. The directories above it are given, nearest first;
above the last of them there is nothing, and two dots lead back to it. -/
def Node.walk (node : Node) (above : List Node) : List String → Except AccessError Node
  | [] => .ok node
  | name :: names =>
    match node with
    | .file _ => .error .notDirectory
    | .directory entries =>
      if name = ".." then
        match above with
        | [] => node.walk [] names
        | parent :: higher => parent.walk higher names
      else if maxNameBytes < name.utf8ByteSize then .error .nameTooLong
      else
        match entries.lookup name with
        | none => .error .notFound
        | some child => child.walk (node :: above) names

/-- A tree of files with a working directory. -/
structure FileSystem where
  root : Node
  /-- The names that lead from the root to the working directory. -/
  workingDirectory : List String

namespace FileSystem

/-- The file system that holds nothing but an empty working directory. This directory stands under
the empty name, which no written path has, so that nothing leads into it from outside. -/
def blank : FileSystem where
  root := .directory [("", .empty)]
  workingDirectory := [""]

/-- The names from the root on that a path stands for. -/
def absoluteNames (fs : FileSystem) (path : Path) : List String :=
  match path.anchor with
  | .here => fs.workingDirectory ++ path.names
  | _ => path.names

/-- The file system with a directory at a path, and with those that the path leads through. -/
def addDirectory (fs : FileSystem) (path : Path) : FileSystem :=
  { fs with root := fs.root.makeWay [] (fs.absoluteNames path) }

/-- The file system with a file at a path, and with the directories that the path leads through. -/
def addFile (fs : FileSystem) (path : Path) (bytes : List UInt8) : FileSystem :=
  let names := fs.absoluteNames path
  { fs with root := (fs.root.makeWay [] names.dropLast).addFile (Node.placeOf names) bytes }

/-- The node that a path leads to. -/
def resolve (fs : FileSystem) (path : Path) : Except AccessError Node :=
  if path.display.toList.contains '\x00' then .error .embeddedNul
  else if path.isTooLong then .error .nameTooLong
  else fs.root.walk [] (fs.absoluteNames path)

end FileSystem

end TemplateLint.Files
