import TemplateLint.CommandLine.LintCommand

/-!
# The lint program

Takes a snapshot of the files that the arguments name, runs the lint command on it, and writes
what the command says. Everything the command decides is decided in `LintCommand`.

A snapshot has no permissions. So a file that is there but may not be read ends the program while
the snapshot is taken, with the complaint of the system and before any template is judged; it is
neither passed over nor taken for a missing one. A directory that may not be listed counts as empty,
and what stands behind one that may not be entered counts as missing.
-/

namespace TemplateLint.CommandLine

open TemplateLint.Files

/-- The file or directory at a path, with all that is below it; none if the path leads nowhere. -/
partial def snapshot (path : String) : IO (Option Node) := do
  match ← try pure (some (← (← IO.FS.realPath path).isDir)) catch _ => pure none with
  | none => return none
  | some false => return some (.file (← IO.FS.readBinFile path).toList)
  | some true =>
    let mut entries := #[]
    for entry in ← try (← IO.FS.realPath path).readDir catch _ => pure #[] do
      if let some node ← snapshot (path ++ "/" ++ entry.fileName) then
        entries := entries.push (entry.fileName, node)
    return some (.directory entries.toList)

/-- A change to a tree at the place that a path leads to; none if it leads nowhere. -/
def changeAt (path : Path) (change : Node → Node) (tree : Node) : IO Node := do
  try
    let place ← IO.FS.realPath path.display
    return tree.modify change (Path.parse place.toString).names
  catch _ => return tree

/-- A tree with the directories and files that a path leads through, without their contents, and
with all that stands at its end. -/
def addSnapshot (tree : Node) (path : Path) : IO Node := do
  if path.display.toList.contains '\x00' then return tree
  let mut tree := tree
  for count in [0:path.names.length] do
    let stem : Path := { path with names := path.names.take count }
    let isFile ← try pure !(← (← IO.FS.realPath stem.display).isDir) catch _ => pure false
    tree ← changeAt stem (if isFile then fun _ => .file [] else id) tree
  match ← snapshot path.display with
  | some node => changeAt path (fun _ => node) tree
  | none => return tree

/-- The part of the file system that paths lead to. -/
def readFileSystem (paths : List Path) : IO FileSystem := do
  let workingDirectory := (Path.parse (← IO.currentDir).toString).names
  let root ← paths.foldlM addSnapshot (Node.empty.addDirectory workingDirectory)
  return { root, workingDirectory }

end TemplateLint.CommandLine

open TemplateLint.CommandLine in
/-- Lints the templates that the arguments name. What has been written before something breaks the
command off is written all the same. -/
def main (arguments : List String) : IO UInt32 := do
  let paths :=
    match LintCommand.interface.parse {} arguments with
    | .ok settings => settings.paths
    | .error _ => []
  let course := LintCommand.start (← readFileSystem paths) arguments
  IO.print course.outcome.output
  IO.eprint course.outcome.errors
  match course.breakdown with
  | none => return UInt32.ofNat course.outcome.status
  | some breakdown =>
    IO.eprintln breakdown.message
    return 1
