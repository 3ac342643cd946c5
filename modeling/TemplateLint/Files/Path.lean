/-!
# Paths

A path is a list of names below an anchor. Reading one drops empty names and single dots, so that
repeated slashes, slashes at the end and `./` mean nothing; two dots stay, because only the file
system can say what they mean. Paths are ordered by their names, one after the other, which is not
the order of their written forms: `a/b` comes before `a.c`.
-/

namespace TemplateLint.Files

/-- Where the names of a path begin. -/
inductive Anchor where
  /-- At the working directory. -/
  | here
  /-- At the root directory. -/
  | root
  /-- At the root directory, written with exactly two slashes. -/
  | doubleRoot
  deriving DecidableEq

/-- How an anchor is written. -/
def Anchor.display : Anchor → String
  | .here => ""
  | .root => "/"
  | .doubleRoot => "//"

/-- The anchor of a written path, which depends on the slashes in front. -/
def Anchor.ofText (text : List Char) : Anchor :=
  match (text.takeWhile (· == '/')).length with
  | 0 => .here
  | 2 => .doubleRoot
  | _ => .root

/-- A path in a file system. -/
structure Path where
  anchor : Anchor
  names : List String
  deriving DecidableEq

/-- The pieces of a text between slashes, of which there is always at least one. -/
def splitSlash : List Char → List (List Char)
  | [] => [[]]
  | c :: text =>
    if c = '/' then [] :: splitSlash text
    else
      match splitSlash text with
      | [] => [[c]]
      | piece :: pieces => (c :: piece) :: pieces

namespace Path

/-- Whether a piece of a written path is a name. -/
def isName (piece : List Char) : Bool :=
  !piece.isEmpty && piece != ['.']

/-- The path that a text writes. -/
def parse (text : String) : Path where
  anchor := Anchor.ofText text.toList
  names := ((splitSlash text.toList).filter isName).map String.ofList

/-- No name of a written path is empty. -/
theorem ne_empty_of_mem_names {text name : String} (h : name ∈ (parse text).names) :
    name ≠ "" := by
  simp only [parse, List.mem_map, List.mem_filter, isName] at h
  obtain ⟨piece, ⟨-, hpiece⟩, rfl⟩ := h
  cases piece with
  | nil => simp at hpiece
  | cons c rest =>
    intro hempty
    have hlist := congrArg String.toList hempty
    simp at hlist

/-- How a path is written; the path without names is a single dot. -/
def display (path : Path) : String :=
  let written := path.anchor.display ++ String.intercalate "/" path.names
  if written = "" then "." else written

/-- The path further down. -/
def join (path : Path) (names : List String) : Path :=
  { path with names := path.names ++ names }

/-- Whether a path does not come after another one. -/
def le (a b : Path) : Bool :=
  !b.names.lex a.names fun x y => decide (x < y)

/-- The last name, or nothing for a path without names. -/
def lastName (path : Path) : String :=
  path.names.getLast?.getD ""

end Path

/-- The ending of a file name from its last dot on. A dot that is the first or the last character
of the name begins no ending. -/
def nameSuffix (name : String) : String :=
  let back := name.toList.reverse
  match back.takeWhile (· != '.'), back.dropWhile (· != '.') with
  | [], _ => ""
  | _, [] => ""
  | _, [_] => ""
  | ending, dot :: _ => String.ofList (dot :: ending.reverse)

end TemplateLint.Files
