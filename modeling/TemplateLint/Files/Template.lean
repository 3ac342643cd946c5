import TemplateLint.Files.Tree
import TemplateLint.Text.Quoted
import TemplateLint.Text.Utf8

/-!
# Templates in a file system

`loadTemplate` reads one template: its bytes are UTF-8, and a byte-order mark in front is dropped.
`templatePaths` lists the templates below a directory in the order of their paths; hidden files
and directories count as any others.

Every file and directory below has to be asked about on the way, so one whose path is too long ends
the list. Directories are entered before any file is asked about: a directory that is too long to
be entered leaves nothing to list, and a file that is too long hides what comes after it.
-/

namespace TemplateLint.Files

open TemplateLint.Text

/-! ### Questions that a name can be too long for -/

/-- A path was asked about that is too long to be followed. -/
structure PathTooLong where
  path : Path
  deriving DecidableEq

/-- The wording for a path that is too long. -/
def PathTooLong.message (error : PathTooLong) : String :=
  "[Errno 36] File name too long: " ++ quoted error.path.display

namespace FileSystem

/-- What a path leads to, if it leads anywhere. Only a path that is too long cannot be asked
about. -/
def find? (fs : FileSystem) (path : Path) : Except PathTooLong (Option Node) :=
  match fs.resolve path with
  | .ok node => .ok (some node)
  | .error .nameTooLong => .error ⟨path⟩
  | .error _ => .ok none

/-- Whether a path leads to a directory. -/
def isDirectory (fs : FileSystem) (path : Path) : Except PathTooLong Bool := do
  match ← fs.find? path with
  | some (.directory _) => return true
  | _ => return false

end FileSystem

/-! ### Loading -/

/-- Why a file is no template. A file of a tree can always be read, so that there is no cause for
one that may not be. -/
inductive LoadFault where
  | notFound
  | isDirectory
  | notDirectory
  | nameTooLong
  | notText (fault : Utf8.Fault)
  deriving DecidableEq

/-- The wording of each cause. -/
def LoadFault.message : LoadFault → String
  | .notFound => "file not found"
  | .isDirectory => "is a directory"
  | .notDirectory => "Not a directory"
  | .nameTooLong => "File name too long"
  | .notText fault => "not valid UTF-8 (" ++ fault.message ++ ")"

/-- A template that could not be read. -/
structure LoadError where
  path : Path
  fault : LoadFault
  deriving DecidableEq

/-- The wording for a template that could not be read. -/
def LoadError.message (error : LoadError) : String :=
  "Cannot read template " ++ error.path.display ++ ": " ++ error.fault.message

/-- Why no template was loaded. -/
inductive LoadFailure where
  /-- The path cannot even be asked for. -/
  | embeddedNul
  | unreadable (error : LoadError)
  deriving DecidableEq

/-- The wording of each cause. -/
def LoadFailure.message : LoadFailure → String
  | .embeddedNul => "embedded null byte"
  | .unreadable error => error.message

/-- The text without the byte-order mark it may begin with. -/
def dropByteOrderMark : List Char → List Char
  | [] => []
  | c :: text => if c.toNat = 0xFEFF then text else c :: text

/-- The template that bytes hold. -/
def decodeTemplate (bytes : List UInt8) : Except LoadFault (List Char) :=
  match Utf8.decode bytes with
  | .ok text => .ok (dropByteOrderMark text)
  | .error fault => .error (.notText fault)

/-- The template at a path. -/
def loadTemplate (fs : FileSystem) (path : Path) : Except LoadFailure (List Char) :=
  let unreadable (fault : LoadFault) : LoadFailure := .unreadable ⟨path, fault⟩
  match fs.resolve path with
  | .ok (.file bytes) => (decodeTemplate bytes).mapError unreadable
  | .ok (.directory _) => .error (unreadable .isDirectory)
  | .error .embeddedNul => .error .embeddedNul
  | .error .nameTooLong => .error (unreadable .nameTooLong)
  | .error .notFound => .error (unreadable .notFound)
  | .error .notDirectory => .error (unreadable .notDirectory)

/-! ### Listing -/

/-- The endings that mark a file as a template. -/
def templateSuffixes : List String := [".html", ".sline"]

/-- What listing templates comes to: those found, in the order of their paths, and what ended the
list before its time. -/
structure Listing where
  paths : List Path
  obstacle : Option PathTooLong := none

/-- The whole list, if nothing ended it before its time. -/
def Listing.complete (listing : Listing) : Except PathTooLong (List Path) :=
  match listing.obstacle with
  | none => .ok listing.paths
  | some error => .error error

theorem Listing.complete_eq_ok_iff {listing : Listing} {paths : List Path} :
    listing.complete = .ok paths ↔ listing.obstacle = none ∧ listing.paths = paths := by
  unfold Listing.complete
  cases listing.obstacle <;> simp

theorem Listing.complete_eq_error_iff {listing : Listing} {error : PathTooLong} :
    listing.complete = .error error ↔ listing.obstacle = some error := by
  unfold Listing.complete
  cases listing.obstacle <;> simp

/-- Whether the name of a file has one of some endings. -/
def hasSuffix (suffixes : List String) (path : Path) : Bool :=
  suffixes.contains (nameSuffix path.lastName)

/-- The templates below the entries of a directory. -/
def listBelow (root : Path) (entries : List (String × Node)) (suffixes : List String) : Listing :=
  let sorted (places : List (List String)) : List Path := (places.map root.join).mergeSort Path.le
  match (sorted (Node.entryDirectories entries)).find? Path.isTooLong with
  | some path => { paths := [], obstacle := some ⟨path⟩ }
  | none =>
    let files := sorted (Node.entryPaths entries)
    { paths := (files.takeWhile fun path => !path.isTooLong).filter (hasSuffix suffixes)
      obstacle := (files.find? Path.isTooLong).map PathTooLong.mk }

/-- Where no path is too long, all files below are looked through in the order of their paths. -/
theorem listBelow_of_not_isTooLong {root : Path} {entries : List (String × Node)}
    (hdirectories : ∀ names ∈ Node.entryDirectories entries, (root.join names).isTooLong = false)
    (hfiles : ∀ names ∈ Node.entryPaths entries, (root.join names).isTooLong = false)
    (suffixes : List String) :
    listBelow root entries suffixes =
      { paths := (((Node.entryPaths entries).map root.join).mergeSort Path.le).filter
          (hasSuffix suffixes) } := by
  have hshort (places : List (List String))
      (h : ∀ names ∈ places, (root.join names).isTooLong = false) :
      ∀ path ∈ (places.map root.join).mergeSort Path.le, path.isTooLong = false := by
    intro path hpath
    obtain ⟨names, hnames, rfl⟩ := List.mem_map.mp (List.mem_mergeSort.mp hpath)
    exact h names hnames
  have hnone (paths : List Path) (h : ∀ path ∈ paths, path.isTooLong = false) :
      paths.find? Path.isTooLong = none := by
    rw [List.find?_eq_none]
    intro path hpath
    simp [h path hpath]
  have hkeep (paths : List Path) (h : ∀ path ∈ paths, path.isTooLong = false) :
      paths.takeWhile (fun path => !path.isTooLong) = paths := by
    induction paths with
    | nil => rfl
    | cons path later ih =>
      rw [List.takeWhile_cons_of_pos (by simp [h path])]
      rw [ih fun other hother => h other (List.mem_cons_of_mem _ hother)]
  simp only [listBelow, hnone _ (hshort _ hdirectories), hnone _ (hshort _ hfiles),
    hkeep _ (hshort _ hfiles), Option.map_none]

/-- The templates that a path stands for, as far as they can be listed: itself if it is a file,
whatever its ending, and those below it if it is a directory. -/
def listTemplates (fs : FileSystem) (root : Path) (suffixes : List String := templateSuffixes) :
    Listing :=
  match fs.find? root with
  | .error error => { paths := [], obstacle := some error }
  | .ok (some (.file _)) => { paths := [root] }
  | .ok (some (.directory entries)) => listBelow root entries suffixes
  | .ok none => { paths := [] }

/-- The templates that a path stands for. -/
def templatePaths (fs : FileSystem) (root : Path) (suffixes : List String := templateSuffixes) :
    Except PathTooLong (List Path) :=
  (listTemplates fs root suffixes).complete

end TemplateLint.Files
