import Mathlib.Data.List.Basic
import TemplateLint.Files.Template

/-!
# Trees of files

What a tree lists and where a path leads are two readings of it. `Node.Below` is the first one as a
relation, entry by entry; `Node.mem_filePaths_iff` and `Node.mem_directoryPaths_iff` say that the
lists hold what it relates. They agree with `Node.walk` in a tree whose directories hold each name
once, and only names that a file system can hold (`Node.isProper`). A file system that is built up
along such names is proper (`FileSystem.Proper.addFile`, `FileSystem.Proper.addDirectory`). In it

* what stands below a directory is found again under the path of the directory and its own names
  (`FileSystem.Proper.resolve_join`), unless the two together are too long to be followed;
* a path that is not too long, with names that are not, is never refused for its length
  (`FileSystem.Proper.resolve_ne_nameTooLong`);
* a directory is listed to its end unless it holds something whose path is too long
  (`templatePaths_eq_ok_iff`).
-/

namespace TemplateLint.Files

/-! ### Proper trees -/

/-- Whether a directory can hold an entry of a name. -/
def isEntryName (name : String) : Bool :=
  name != ".." && decide (name.utf8ByteSize ≤ maxNameBytes) && !name.toList.contains '\x00'

theorem isEntryName_iff {name : String} :
    isEntryName name ↔
      name ≠ ".." ∧ name.utf8ByteSize ≤ maxNameBytes ∧ '\x00' ∉ name.toList := by
  simp [isEntryName, and_assoc]

namespace Node

mutual

/-- Whether each directory in a tree holds names that it can hold, and each of them once. -/
def isProper : Node → Bool
  | .file _ => true
  | .directory entries => areProper entries

/-- Whether entries have names that a directory can hold, each of them once, and lead to proper
trees. -/
def areProper : List (String × Node) → Bool
  | [] => true
  | (name, node) :: later =>
    isEntryName name && !(later.map Prod.fst).contains name && isProper node && areProper later

end

variable {node child target : Node} {entries : List (String × Node)} {name : String}
  {names : List String} {above : List Node}

theorem areProper_cons_iff {later : List (String × Node)} :
    areProper ((name, node) :: later) ↔
      isEntryName name ∧ name ∉ later.map Prod.fst ∧ node.isProper ∧ areProper later := by
  simp only [areProper, Bool.and_eq_true, Bool.not_eq_true', List.contains_eq_mem,
    decide_eq_false_iff_not, and_assoc]

private theorem of_mem_areProper (h : areProper entries) (hmem : (name, child) ∈ entries) :
    isEntryName name ∧ child.isProper ∧ entries.lookup name = some child := by
  induction entries with
  | nil => simp at hmem
  | cons entry later ih =>
    obtain ⟨known, node⟩ := entry
    obtain ⟨hname, hfresh, hnode, hlater⟩ := areProper_cons_iff.mp h
    rcases List.mem_cons.mp hmem with heq | hlatermem
    · obtain ⟨rfl, rfl⟩ := Prod.mk.inj heq
      exact ⟨hname, hnode, List.lookup_cons_self⟩
    · obtain ⟨hname, hchild, hlookup⟩ := ih hlater hlatermem
      refine ⟨hname, hchild, ?_⟩
      -- an entry further down has another name, so it is the first of its own
      have hne : name ≠ known := by
        rintro rfl
        exact hfresh (List.mem_map_of_mem hlatermem)
      rw [List.lookup_cons, beq_false_of_ne hne, hlookup]

private theorem mem_of_lookup_eq_some (h : entries.lookup name = some child) :
    (name, child) ∈ entries := by
  obtain ⟨before, later, rfl, -⟩ := List.lookup_eq_some_iff.mp h
  simp

/-! ### Building trees up -/

private theorem mem_names_setEntry {known : String}
    (h : known ∈ (setEntry name node entries).map Prod.fst) :
    known = name ∨ known ∈ entries.map Prod.fst := by
  induction entries with
  | nil => simpa [setEntry] using h
  | cons entry later ih =>
    obtain ⟨first, old⟩ := entry
    rw [setEntry] at h
    split at h
    · exact .inr h
    · rcases List.mem_cons.mp h with rfl | h
      · exact .inr List.mem_cons_self
      · exact (ih h).imp_right (List.mem_cons_of_mem _)

private theorem areProper_setEntry (hname : isEntryName name) (hnode : node.isProper)
    (h : areProper entries) : areProper (setEntry name node entries) := by
  induction entries with
  | nil => exact areProper_cons_iff.mpr ⟨hname, by simp, hnode, rfl⟩
  | cons entry later ih =>
    obtain ⟨first, old⟩ := entry
    obtain ⟨hfirst, hfresh, hold, hlater⟩ := areProper_cons_iff.mp h
    rw [setEntry]
    split
    · exact areProper_cons_iff.mpr ⟨hfirst, hfresh, hnode, hlater⟩
    · next hne =>
      refine areProper_cons_iff.mpr ⟨hfirst, fun hmem => ?_, hold, ih hlater⟩
      exact (mem_names_setEntry hmem).elim hne hfresh

theorem isProper_modify {change : Node → Node}
    (hchange : ∀ node, node.isProper → (change node).isProper)
    (hnames : ∀ name ∈ names, isEntryName name) (h : node.isProper) :
    (modify change names node).isProper := by
  induction names generalizing node with
  | nil => exact hchange node h
  | cons name names ih =>
    obtain ⟨hname, hnames⟩ := List.forall_mem_cons.mp hnames
    have hentries : areProper node.entries := by
      cases node with
      | file bytes => rfl
      | directory entries => exact h
    have hchild : ((node.entries.lookup name).getD empty).isProper := by
      cases hlookup : node.entries.lookup name with
      | none => rfl
      | some child => exact (of_mem_areProper hentries (mem_of_lookup_eq_some hlookup)).2.1
    exact areProper_setEntry hname (ih hnames hchild) hentries

/-- Two dots lead up, and any other name leads to an entry that a directory can hold. -/
private theorem isEntryName_step {place : List String} (hplace : ∀ known ∈ place, isEntryName known)
    (hname : name = ".." ∨ isEntryName name) : ∀ known ∈ step place name, isEntryName known := by
  rw [step]
  split
  · exact fun known hknown => hplace known (List.dropLast_subset _ hknown)
  · next hdots =>
    exact List.forall_mem_append.mpr
      ⟨hplace, List.forall_mem_singleton.mpr (hname.resolve_left hdots)⟩

private theorem isEntryName_placeOf (hnames : ∀ name ∈ names, name = ".." ∨ isEntryName name) :
    ∀ known ∈ placeOf names, isEntryName known := by
  suffices h : ∀ place : List String, (∀ known ∈ place, isEntryName known) →
      ∀ known ∈ names.foldl step place, isEntryName known from h [] (by simp)
  intro place hplace
  induction names generalizing place with
  | nil => exact hplace
  | cons name names ih =>
    obtain ⟨hname, hnames⟩ := List.forall_mem_cons.mp hnames
    exact ih hnames _ (isEntryName_step hplace hname)

theorem isProper_makeWay {place : List String} (hplace : ∀ known ∈ place, isEntryName known)
    (hnames : ∀ name ∈ names, name = ".." ∨ isEntryName name) (h : node.isProper) :
    (makeWay place names node).isProper := by
  have hstep {tree : Node} {place : List String} (hplace : ∀ known ∈ place, isEntryName known)
      (htree : tree.isProper) : (tree.addDirectory place).isProper :=
    isProper_modify (fun _ hnode => hnode) hplace htree
  induction names generalizing place node with
  | nil => exact hstep hplace h
  | cons name names ih =>
    obtain ⟨hname, hnames⟩ := List.forall_mem_cons.mp hnames
    exact ih (isEntryName_step hplace hname) hnames (hstep hplace h)

/-! ### What stands below a node -/

/-- Names lead down from a node to another one, entry by entry. -/
inductive Below : Node → List String → Node → Prop
  | here (node : Node) : Below node [] node
  | entry {entries : List (String × Node)} {name : String} {child target : Node}
      {names : List String} (hmem : (name, child) ∈ entries) (hchild : Below child names target) :
      Below (.directory entries) (name :: names) target

theorem entryPaths_eq_flatMap (entries : List (String × Node)) :
    entryPaths entries = entries.flatMap fun entry => (filePaths entry.2).map (entry.1 :: ·) := by
  induction entries with
  | nil => rfl
  | cons entry later ih => rw [entryPaths, ih, List.flatMap_cons]

theorem entryDirectories_eq_flatMap (entries : List (String × Node)) :
    entryDirectories entries =
      entries.flatMap fun entry => (directoryPaths entry.2).map (entry.1 :: ·) := by
  induction entries with
  | nil => rfl
  | cons entry later ih => rw [entryDirectories, ih, List.flatMap_cons]

theorem below_nil_iff : node.Below [] target ↔ node = target := by
  constructor
  · intro h
    cases h
    rfl
  · rintro rfl
    exact .here node

theorem below_cons_iff :
    node.Below (name :: names) target ↔
      ∃ child, (name, child) ∈ node.entries ∧ child.Below names target := by
  constructor
  · intro h
    cases h with
    | entry hmem hchild => exact ⟨_, hmem, hchild⟩
  · rintro ⟨child, hmem, hchild⟩
    cases node with
    | file bytes => simp [Node.entries] at hmem
    | directory entries => exact .entry hmem hchild

theorem mem_filePaths_iff : names ∈ node.filePaths ↔ ∃ bytes, node.Below names (.file bytes) := by
  induction names generalizing node with
  | nil => cases node <;> simp [filePaths, entryPaths_eq_flatMap, below_nil_iff]
  | cons name names ih =>
    have hcons : name :: names ∈ node.filePaths ↔
        ∃ child, (name, child) ∈ node.entries ∧ names ∈ child.filePaths := by
      cases node <;> simp [filePaths, entryPaths_eq_flatMap, Node.entries]
    simp only [hcons, ih, below_cons_iff]
    rw [exists_comm]
    simp only [exists_and_left]

theorem mem_directoryPaths_iff :
    names ∈ node.directoryPaths ↔ ∃ entries, node.Below names (.directory entries) := by
  induction names generalizing node with
  | nil => cases node <;> simp [directoryPaths, below_nil_iff]
  | cons name names ih =>
    have hcons : name :: names ∈ node.directoryPaths ↔
        ∃ child, (name, child) ∈ node.entries ∧ names ∈ child.directoryPaths := by
      cases node <;> simp [directoryPaths, entryDirectories_eq_flatMap, Node.entries]
    simp only [hcons, ih, below_cons_iff]
    rw [exists_comm]
    simp only [exists_and_left]

theorem mem_entryPaths_iff :
    names ∈ entryPaths entries ↔ ∃ bytes, (Node.directory entries).Below names (.file bytes) := by
  rw [← mem_filePaths_iff, filePaths]

theorem mem_entryDirectories_iff :
    names ∈ entryDirectories entries ↔
      names ≠ [] ∧ ∃ below, (Node.directory entries).Below names (.directory below) := by
  rw [← mem_directoryPaths_iff, directoryPaths]
  cases names with
  | nil => simp [entryDirectories_eq_flatMap]
  | cons name names => simp

/-- What holds of everything in a directory holds of itself, of the directories below and of the
files below. -/
theorem forall_below_iff {P : List String → Prop} :
    (∀ names target, (Node.directory entries).Below names target → P names) ↔
      P [] ∧ (∀ names ∈ entryDirectories entries, P names) ∧
        ∀ names ∈ entryPaths entries, P names := by
  constructor
  · intro h
    refine ⟨h [] _ (.here _), fun names hmem => ?_, fun names hmem => ?_⟩
    · obtain ⟨-, below, hbelow⟩ := mem_entryDirectories_iff.mp hmem
      exact h names _ hbelow
    · obtain ⟨bytes, hbelow⟩ := mem_entryPaths_iff.mp hmem
      exact h names _ hbelow
  · rintro ⟨hself, hdirectories, hfiles⟩ names target hbelow
    cases target with
    | file bytes => exact hfiles names (mem_entryPaths_iff.mpr ⟨bytes, hbelow⟩)
    | directory below =>
      by_cases hnames : names = []
      · rwa [hnames]
      · exact hdirectories names (mem_entryDirectories_iff.mpr ⟨hnames, below, hbelow⟩)

theorem Below.isEntryName (h : node.Below names target) (hnode : node.isProper) :
    ∀ name ∈ names, isEntryName name := by
  induction h with
  | here => simp
  | entry hmem _ ih =>
    rw [isProper] at hnode
    obtain ⟨hname, hchild, -⟩ := of_mem_areProper hnode hmem
    exact List.forall_mem_cons.mpr ⟨hname, ih hchild⟩

theorem walk_cons_of_lookup (hdots : name ≠ "..") (hsize : ¬ maxNameBytes < name.utf8ByteSize)
    (hlookup : entries.lookup name = some child) :
    (Node.directory entries).walk above (name :: names) =
      child.walk (.directory entries :: above) names := by
  rw [Node.walk.eq_def]
  simp only [hdots, hsize, hlookup, if_false]

theorem walk_of_nameTooLong (hdots : name ≠ "..") (hsize : maxNameBytes < name.utf8ByteSize) :
    (Node.directory entries).walk above (name :: names) = .error .nameTooLong := by
  rw [Node.walk.eq_def]
  simp only [hdots, hsize, if_false, if_true]

/-- Walking goes where entries lead. -/
theorem Below.walk (h : node.Below names target) (hnode : node.isProper) (above : List Node) :
    node.walk above names = .ok target := by
  induction h generalizing above with
  | here => rw [Node.walk]
  | entry hmem _ ih =>
    rw [isProper] at hnode
    obtain ⟨hname, hchild, hlookup⟩ := of_mem_areProper hnode hmem
    obtain ⟨hdots, hsize, -⟩ := isEntryName_iff.mp hname
    rw [walk_cons_of_lookup hdots (Nat.not_lt.mpr hsize) hlookup]
    exact ih hchild _

/-! ### Walking -/

/-- A walk goes on from where it has led. -/
private theorem walk_append (h : node.walk above names = .ok target) :
    ∃ higher, ∀ more, node.walk above (names ++ more) = target.walk higher more := by
  fun_induction Node.walk node above names with
  | case1 node above =>
    cases h
    exact ⟨above, fun more => rfl⟩
  | case2 => simp at h
  | case3 entries names ih =>
    obtain ⟨higher, hgo⟩ := ih h
    refine ⟨higher, fun more => ?_⟩
    rw [← hgo, List.cons_append, Node.walk, if_pos rfl]
  | case4 entries names parent above ih =>
    obtain ⟨higher, hgo⟩ := ih h
    refine ⟨higher, fun more => ?_⟩
    rw [← hgo, List.cons_append, Node.walk, if_pos rfl]
  | case5 => simp at h
  | case6 => simp at h
  | case7 above name names entries hdots hsize child hlookup ih =>
    obtain ⟨higher, hgo⟩ := ih h
    refine ⟨higher, fun more => ?_⟩
    rw [← hgo, List.cons_append, walk_cons_of_lookup hdots hsize hlookup]

/-- A walk through a proper tree stays among proper trees. -/
private theorem isProper_of_walk (hnode : node.isProper)
    (habove : ∀ parent ∈ above, parent.isProper)
    (h : node.walk above names = .ok target) : target.isProper := by
  fun_induction Node.walk node above names with
  | case1 node above =>
    cases h
    exact hnode
  | case2 => simp at h
  | case3 entries names ih => exact ih hnode habove h
  | case4 entries names parent above ih =>
    obtain ⟨hparent, habove⟩ := List.forall_mem_cons.mp habove
    exact ih hparent habove h
  | case5 => simp at h
  | case6 => simp at h
  | case7 above name names entries hdots hsize child hlookup ih =>
    have hchild : child.isProper := by
      rw [isProper] at hnode
      exact (of_mem_areProper hnode (mem_of_lookup_eq_some hlookup)).2.1
    exact ih hchild (List.forall_mem_cons.mpr ⟨hnode, habove⟩) h

/-- Only a name that is too long is refused as such. -/
private theorem exists_of_walk_nameTooLong (h : node.walk above names = .error .nameTooLong) :
    ∃ name ∈ names, maxNameBytes < name.utf8ByteSize := by
  fun_induction Node.walk node above names with
  | case1 => simp at h
  | case2 => simp at h
  | case3 entries names ih => exact List.exists_mem_cons_of_exists (ih h)
  | case4 entries names parent above ih => exact List.exists_mem_cons_of_exists (ih h)
  | case5 above name names entries hdots hsize => exact ⟨name, List.mem_cons_self, hsize⟩
  | case6 => simp at h
  | case7 above name names entries hdots hsize child hlookup ih =>
    exact List.exists_mem_cons_of_exists (ih h)

private theorem walk_ne_embeddedNul : node.walk above names ≠ .error .embeddedNul := by
  fun_induction Node.walk node above names <;> simp_all

end Node

/-! ### Paths -/

namespace Path

variable {path : Path} {c : Char}

private theorem splitSlash_of_not_mem {piece : List Char} (hslash : '/' ∉ piece) :
    splitSlash piece = [piece] := by
  induction piece with
  | nil => rfl
  | cons c piece ih =>
    rw [List.mem_cons, not_or] at hslash
    rw [splitSlash, if_neg (Ne.symm hslash.1), ih hslash.2]

private theorem splitSlash_append {piece : List Char} (hslash : '/' ∉ piece) (rest : List Char) :
    splitSlash (piece ++ '/' :: rest) = piece :: splitSlash rest := by
  induction piece with
  | nil => simp [splitSlash]
  | cons c piece ih =>
    rw [List.mem_cons, not_or] at hslash
    rw [List.cons_append, splitSlash, if_neg (Ne.symm hslash.1), ih hslash.2]

private theorem splitSlash_intercalate {names : List String} (hne : names ≠ [])
    (hslash : ∀ name ∈ names, '/' ∉ name.toList) :
    splitSlash (String.intercalate "/" names).toList = names.map String.toList := by
  rw [String.toList_intercalate]
  induction names with
  | nil => exact absurd rfl hne
  | cons name names ih =>
    obtain ⟨hname, hnames⟩ := List.forall_mem_cons.mp hslash
    cases names with
    | nil => simpa using splitSlash_of_not_mem hname
    | cons next names =>
      rw [List.map_cons, List.map_cons, List.intercalate_cons_cons, ← List.map_cons]
      have hrest := ih (List.cons_ne_nil next names) hnames
      have hslash : "/".toList = ['/'] := rfl
      rw [hslash, List.append_assoc, List.singleton_append, splitSlash_append hname]
      rw [← hslash, hrest]

/-- Names that are written with slashes between them are read back. -/
theorem parse_intercalate {names : List String} (hne : names ≠ [])
    (hnames : ∀ name ∈ names, isName name.toList ∧ '/' ∉ name.toList) :
    parse (String.intercalate "/" names) = ⟨.here, names⟩ := by
  have hsplit := splitSlash_intercalate hne fun name hname => (hnames name hname).2
  have hempty : [] ∉ names.map String.toList := by
    intro hmem
    obtain ⟨name, hname, hnil⟩ := List.mem_map.mp hmem
    have hisName := (hnames name hname).1
    rw [hnil] at hisName
    exact Bool.false_ne_true hisName
  -- no name is empty, so the text begins with no slash
  have hanchor : Anchor.ofText (String.intercalate "/" names).toList = .here := by
    cases htext : (String.intercalate "/" names).toList with
    | nil => rfl
    | cons c text =>
      have hc : c ≠ '/' := by
        rintro rfl
        rw [htext, splitSlash, if_pos rfl] at hsplit
        exact hempty (hsplit ▸ List.mem_cons_self)
      simp [Anchor.ofText, hc]
  rw [parse, hanchor, hsplit, List.filter_eq_self.mpr, List.map_map]
  · simp [Function.comp_def]
  · intro piece hpiece
    obtain ⟨name, hname, rfl⟩ := List.mem_map.mp hpiece
    exact (hnames name hname).1

/-- A written path has at least the bytes of its names. -/
theorem mul_le_utf8ByteSize_display {size : Nat}
    (hnames : ∀ name ∈ path.names, size ≤ name.utf8ByteSize) :
    path.names.length * size ≤ path.display.utf8ByteSize := by
  have hjoined (names : List String) (h : ∀ name ∈ names, size ≤ name.utf8ByteSize) :
      names.length * size ≤ (String.intercalate "/" names).utf8ByteSize := by
    induction names with
    | nil => simp
    | cons name names ih =>
      obtain ⟨hname, h⟩ := List.forall_mem_cons.mp h
      cases names with
      | nil => simpa using hname
      | cons next names =>
        rw [String.intercalate_cons_cons, String.utf8ByteSize_append, String.utf8ByteSize_append,
          List.length_cons, Nat.succ_mul]
        have hrest := ih h
        omega
  have hwritten : path.names.length * size ≤
      (path.anchor.display ++ String.intercalate "/" path.names).utf8ByteSize := by
    rw [String.utf8ByteSize_append]
    exact Nat.le_add_left_of_le (hjoined path.names hnames)
  rw [display]
  split
  · next hempty =>
    rw [hempty, String.utf8ByteSize_empty] at hwritten
    omega
  · exact hwritten

private theorem mem_of_mem_splitSlash {text piece : List Char} (h : piece ∈ splitSlash text)
    (hc : c ∈ piece) : c ∈ text := by
  fun_induction splitSlash text generalizing piece with
  | case1 => simp_all
  | case2 text ih =>
    rcases List.mem_cons.mp h with rfl | h
    · simp at hc
    · exact List.mem_cons_of_mem _ (ih h hc)
  | case3 d text hd hsplit ih => simp_all
  | case4 d text hd first pieces hsplit ih =>
    rw [hsplit] at ih
    rcases List.mem_cons.mp h with rfl | h
    · rcases List.mem_cons.mp hc with rfl | hc
      · exact List.mem_cons_self
      · exact List.mem_cons_of_mem _ (ih List.mem_cons_self hc)
    · exact List.mem_cons_of_mem _ (ih (List.mem_cons_of_mem _ h) hc)

/-- The characters of a name stand in the text that it was read from. -/
theorem mem_of_mem_names {text name : String} (h : name ∈ (parse text).names)
    (hc : c ∈ name.toList) : c ∈ text.toList := by
  obtain ⟨piece, hpiece, rfl⟩ := List.mem_map.mp h
  rw [String.toList_ofList] at hc
  exact mem_of_mem_splitSlash (List.mem_filter.mp hpiece).1 hc

theorem mem_intercalate_slash_iff {names : List String} (hc : c ≠ '/') :
    c ∈ (String.intercalate "/" names).toList ↔ ∃ name ∈ names, c ∈ name.toList := by
  rw [String.toList_intercalate]
  induction names with
  | nil => simp
  | cons name names ih =>
    cases names with
    | nil => simp
    | cons next names =>
      rw [List.map_cons, List.map_cons, List.intercalate_cons_cons, ← List.map_cons]
      simp only [List.mem_append, ih, List.exists_mem_cons_iff]
      simp [hc]

theorem nul_mem_display_iff :
    '\x00' ∈ path.display.toList ↔ ∃ name ∈ path.names, '\x00' ∈ name.toList := by
  have hwritten : '\x00' ∈ (path.anchor.display ++ String.intercalate "/" path.names).toList ↔
      ∃ name ∈ path.names, '\x00' ∈ name.toList := by
    rw [String.toList_append, List.mem_append, mem_intercalate_slash_iff (by decide)]
    cases path.anchor <;> simp [Anchor.display]
  rw [display]
  split
  · next hempty =>
    rw [← hwritten, hempty]
    decide
  · exact hwritten

end Path

namespace FileSystem

variable {fs : FileSystem} {path root : Path} {node target : Node} {names : List String}

/-- The tree is proper, and no name on the way to the working directory is too long. -/
structure Proper (fs : FileSystem) : Prop where
  root : fs.root.isProper
  workingDirectory : ∀ name ∈ fs.workingDirectory, name.utf8ByteSize ≤ maxNameBytes

theorem proper_blank : blank.Proper :=
  ⟨by decide +kernel, by decide⟩

/-- A file system stays proper when it is built up along names that directories can hold. -/
theorem Proper.addFile (hfs : fs.Proper) (bytes : List UInt8)
    (hnames : ∀ name ∈ fs.absoluteNames path, name = ".." ∨ isEntryName name) :
    (fs.addFile path bytes).Proper := by
  refine ⟨?_, hfs.workingDirectory⟩
  have hway : (fs.root.makeWay [] (fs.absoluteNames path).dropLast).isProper :=
    Node.isProper_makeWay (by simp)
      (fun name hname => hnames name (List.dropLast_subset _ hname)) hfs.root
  exact Node.isProper_modify (fun _ _ => rfl) (Node.isEntryName_placeOf hnames) hway

theorem Proper.addDirectory (hfs : fs.Proper)
    (hnames : ∀ name ∈ fs.absoluteNames path, name = ".." ∨ isEntryName name) :
    (fs.addDirectory path).Proper :=
  ⟨Node.isProper_makeWay (by simp) hnames hfs.root, hfs.workingDirectory⟩

theorem absoluteNames_join (fs : FileSystem) (path : Path) (names : List String) :
    fs.absoluteNames (path.join names) = fs.absoluteNames path ++ names := by
  cases h : path.anchor <;> simp [absoluteNames, Path.join, h]

theorem resolve_eq (hnul : ∀ name ∈ path.names, '\x00' ∉ name.toList) :
    fs.resolve path =
      if path.isTooLong then .error .nameTooLong else fs.root.walk [] (fs.absoluteNames path) := by
  have hdisplay : '\x00' ∉ path.display.toList := by
    rw [Path.nul_mem_display_iff]
    rintro ⟨name, hname, h⟩
    exact hnul name hname h
  rw [resolve, if_neg (by simpa using hdisplay)]

theorem resolve_eq_ok_iff :
    fs.resolve path = .ok node ↔
      (∀ name ∈ path.names, '\x00' ∉ name.toList) ∧ path.isTooLong = false ∧
        fs.root.walk [] (fs.absoluteNames path) = .ok node := by
  constructor
  · intro h
    have hnul : ∀ name ∈ path.names, '\x00' ∉ name.toList := by
      intro name hname hmem
      have hdisplay := Path.nul_mem_display_iff.mpr ⟨name, hname, hmem⟩
      rw [resolve, if_pos (by simpa using hdisplay)] at h
      cases h
    rw [resolve_eq hnul] at h
    split at h
    · cases h
    · next hshort => exact ⟨hnul, by simpa using hshort, h⟩
  · rintro ⟨hnul, hshort, hwalk⟩
    rw [resolve_eq hnul, hshort, hwalk]
    rfl

theorem resolve_ne_embeddedNul (hnul : ∀ name ∈ path.names, '\x00' ∉ name.toList) :
    fs.resolve path ≠ .error .embeddedNul := by
  rw [resolve_eq hnul]
  split
  · simp
  · exact Node.walk_ne_embeddedNul

theorem Proper.isProper_of_resolve (hfs : fs.Proper) (h : fs.resolve path = .ok node) :
    node.isProper := by
  obtain ⟨-, -, hwalk⟩ := resolve_eq_ok_iff.mp h
  exact Node.isProper_of_walk hfs.root (by simp) hwalk

/-- What stands below a node is found under the path of the node and its own names, unless the two
together are too long. -/
theorem Proper.resolve_join (hfs : fs.Proper) (hroot : fs.resolve root = .ok node)
    (hbelow : node.Below names target) :
    fs.resolve (root.join names) =
      if (root.join names).isTooLong then .error .nameTooLong else .ok target := by
  have hnode := hfs.isProper_of_resolve hroot
  obtain ⟨hnul, -, hwalk⟩ := resolve_eq_ok_iff.mp hroot
  have hjoined : ∀ name ∈ (root.join names).names, '\x00' ∉ name.toList := by
    intro name hname
    rcases List.mem_append.mp hname with hname | hname
    · exact hnul name hname
    · exact (isEntryName_iff.mp (hbelow.isEntryName hnode name hname)).2.2
  obtain ⟨higher, hgo⟩ := Node.walk_append hwalk
  rw [resolve_eq hjoined, absoluteNames_join, hgo, hbelow.walk hnode]

/-- A path that is not too long is refused for its length only because of one of its names. -/
theorem Proper.resolve_ne_nameTooLong (hfs : fs.Proper) (hshort : path.isTooLong = false)
    (hnames : ∀ name ∈ path.names, name.utf8ByteSize ≤ maxNameBytes) :
    fs.resolve path ≠ .error .nameTooLong := by
  have hall : ∀ name ∈ fs.absoluteNames path, name.utf8ByteSize ≤ maxNameBytes := by
    rw [absoluteNames]
    split
    · exact List.forall_mem_append.mpr ⟨hfs.workingDirectory, hnames⟩
    · exact hnames
  rw [resolve, hshort]
  split
  · simp
  · intro h
    obtain ⟨name, hname, hlong⟩ := Node.exists_of_walk_nameTooLong h
    exact Nat.not_lt.mpr (hall name hname) hlong

/-- A path is another one, or leads to something below it. -/
def Covers (fs : FileSystem) (root path : Path) : Prop :=
  path = root ∨ ∃ node names target,
    fs.resolve root = .ok node ∧ node.Below names target ∧ path = root.join names

/-- What is no directory covers nothing but itself. -/
theorem Covers.eq_root (h : fs.Covers root path)
    (hroot : ∀ entries, fs.resolve root ≠ .ok (.directory entries)) : path = root := by
  obtain rfl | ⟨node, names, target, hnode, hbelow, rfl⟩ := h
  · rfl
  · cases hbelow with
    | here => simp [Path.join]
    | entry => exact absurd hnode (hroot _)

/-- The file system can be asked about a path and about everything below it. -/
structure Answers (fs : FileSystem) (root : Path) : Prop where
  nul : ∀ name ∈ root.names, '\x00' ∉ name.toList
  covers : ∀ path, fs.Covers root path → fs.resolve path ≠ .error .nameTooLong

/-- Paths that are not too long can be asked about. -/
theorem Proper.answers (hfs : fs.Proper) (hnul : ∀ name ∈ root.names, '\x00' ∉ name.toList)
    (hnames : ∀ name ∈ root.names, name.utf8ByteSize ≤ maxNameBytes)
    (hshort : ∀ path, fs.Covers root path → path.isTooLong = false) : fs.Answers root := by
  refine ⟨hnul, fun path hcovers => ?_⟩
  have hpath := hshort path hcovers
  obtain rfl | ⟨node, names, target, hnode, hbelow, rfl⟩ := hcovers
  · exact hfs.resolve_ne_nameTooLong hpath hnames
  · rw [hfs.resolve_join hnode hbelow, hpath]
    simp

end FileSystem

/-! ### Listing templates -/

section Listing

variable {fs : FileSystem} {root path : Path} {entries : List (String × Node)}
  {suffixes : List String}

/-- The templates below a directory, in the order of their paths. -/
def templatesBelow (root : Path) (entries : List (String × Node))
    (suffixes : List String := templateSuffixes) : List Path :=
  (((Node.entryPaths entries).map root.join).mergeSort Path.le).filter (hasSuffix suffixes)

theorem exists_below_of_mem_templatesBelow (h : path ∈ templatesBelow root entries suffixes) :
    ∃ names bytes, (Node.directory entries).Below names (.file bytes) ∧ path = root.join names := by
  obtain ⟨hmem, -⟩ := List.mem_filter.mp h
  obtain ⟨names, hnames, rfl⟩ := List.mem_map.mp (List.mem_mergeSort.mp hmem)
  obtain ⟨bytes, hbelow⟩ := Node.mem_entryPaths_iff.mp hnames
  exact ⟨names, bytes, hbelow, rfl⟩

/-- What is listed before something is too long is the beginning of the whole list. -/
theorem paths_listBelow_isPrefix :
    (listBelow root entries suffixes).paths <+: templatesBelow root entries suffixes := by
  simp only [listBelow]
  split
  · exact List.nil_prefix
  · exact (List.takeWhile_prefix _).filter _

/-- Listing what stands below a directory comes to its end unless something there is too long. -/
theorem obstacle_listBelow_eq_none_iff :
    (listBelow root entries suffixes).obstacle = none ↔
      (∀ names ∈ Node.entryDirectories entries, (root.join names).isTooLong = false) ∧
        ∀ names ∈ Node.entryPaths entries, (root.join names).isTooLong = false := by
  have hsorted (places : List (List String)) :
      ((places.map root.join).mergeSort Path.le).find? Path.isTooLong = none ↔
        ∀ names ∈ places, (root.join names).isTooLong = false := by
    simp [List.find?_eq_none]
  rw [← hsorted, ← hsorted, listBelow]
  split
  · next path hpath => simp [hpath]
  · next hnone => simp [hnone]

/-- What breaks a list off stands below the directory, and its path is too long. -/
theorem exists_below_of_obstacle {error : PathTooLong}
    (h : (listBelow root entries suffixes).obstacle = some error) :
    ∃ names target, (Node.directory entries).Below names target ∧
      error.path = root.join names ∧ (root.join names).isTooLong := by
  have hfound {places : List (List String)} {path : Path}
      (hfind : ((places.map root.join).mergeSort Path.le).find? Path.isTooLong = some path) :
      ∃ names ∈ places, path = root.join names ∧ (root.join names).isTooLong := by
    have hlong := List.find?_some hfind
    have hmem := List.mem_mergeSort.mp (List.mem_of_find?_eq_some hfind)
    obtain ⟨names, hnames, rfl⟩ := List.mem_map.mp hmem
    exact ⟨names, hnames, rfl, hlong⟩
  simp only [listBelow] at h
  split at h
  · next path hfind =>
    cases h
    obtain ⟨names, hnames, heq, hlong⟩ := hfound hfind
    obtain ⟨-, below, hbelow⟩ := Node.mem_entryDirectories_iff.mp hnames
    exact ⟨names, _, hbelow, heq, hlong⟩
  · obtain ⟨path, hfind, rfl⟩ := Option.map_eq_some_iff.mp h
    obtain ⟨names, hnames, heq, hlong⟩ := hfound hfind
    obtain ⟨bytes, hbelow⟩ := Node.mem_entryPaths_iff.mp hnames
    exact ⟨names, _, hbelow, heq, hlong⟩

theorem listTemplates_directory (hroot : fs.resolve root = .ok (.directory entries)) :
    listTemplates fs root suffixes = listBelow root entries suffixes := by
  simp only [listTemplates, FileSystem.find?, hroot]

/-- **A directory is listed to its end** unless it holds something whose path is too long. -/
theorem templatePaths_eq_ok_iff {paths : List Path}
    (hroot : fs.resolve root = .ok (.directory entries)) :
    templatePaths fs root suffixes = .ok paths ↔
      (∀ names target, (Node.directory entries).Below names target →
        (root.join names).isTooLong = false) ∧ templatesBelow root entries suffixes = paths := by
  have hself : (root.join []).isTooLong = false := by
    obtain ⟨-, hshort, -⟩ := FileSystem.resolve_eq_ok_iff.mp hroot
    simpa [Path.join] using hshort
  rw [templatePaths, Listing.complete_eq_ok_iff, listTemplates_directory hroot,
    obstacle_listBelow_eq_none_iff, Node.forall_below_iff, and_iff_right hself]
  refine and_congr_right fun ⟨hdirectories, hfiles⟩ => ?_
  rw [listBelow_of_not_isTooLong hdirectories hfiles, templatesBelow]

theorem obstacle_of_templatePaths_eq_error {error : PathTooLong}
    (hroot : fs.resolve root = .ok (.directory entries))
    (h : templatePaths fs root suffixes = .error error) :
    (listBelow root entries suffixes).obstacle = some error := by
  rwa [templatePaths, listTemplates_directory hroot, Listing.complete_eq_error_iff] at h

end Listing

end TemplateLint.Files
