import Mathlib.Data.List.Lex
import Mathlib.Data.List.Nodup
import Mathlib.Data.String.Basic
import TemplateLint.Proofs.FileTrees

/-!
# Lists of templates

Which templates stand below a directory does not depend on how the tree is stored: they are the
files at any depth whose names have one of the given endings (`mem_templatesBelow_iff`), and they
are listed in the order of their paths, name by name. Since a directory holds each name once, no
path comes twice (`Node.nodup_entryPaths`), so that the order is strict
(`pairwise_templatesBelow`); and a list in strict order is known from its members.

The list comes to its end unless something below the directory has a path that is too long.
`templatePaths_directory` says so together with the above, and `templatePaths_directory_longPath` is
a directory with one template where it does not: the way to it is long, so that there is an answer
for the directory and none for the file.
-/

namespace TemplateLint.Files

/-! ### Endings of names -/

/-- The ending of a name begins at its last dot. It is empty if there is no dot, or if the last one
is the first or the last character of the name. -/
inductive Ending : (name ending : List Char) → Prop
  | undotted {name : List Char} (hdot : '.' ∉ name) : Ending name []
  | edge {stem rest : List Char} (hdot : '.' ∉ rest) (hedge : stem = [] ∨ rest = []) :
      Ending (stem ++ '.' :: rest) []
  | dotted {stem rest : List Char} (hdot : '.' ∉ rest) (hstem : stem ≠ []) (hrest : rest ≠ []) :
      Ending (stem ++ '.' :: rest) ('.' :: rest)

private theorem bne_dot_of_mem_reverse {rest : List Char} (hdot : '.' ∉ rest) :
    ∀ c ∈ rest.reverse, (c != '.') = true := by
  intro c hc
  rw [bne_iff_ne]
  rintro rfl
  exact hdot (List.mem_reverse.mp hc)

private theorem nameSuffix_undotted {name : List Char} (hdot : '.' ∉ name) :
    nameSuffix (String.ofList name) = "" := by
  have hrest : (name.reverse ++ []).dropWhile (· != '.') = [] :=
    List.dropWhile_append_of_pos (bne_dot_of_mem_reverse hdot)
  rw [List.append_nil] at hrest
  simp only [nameSuffix, String.toList_ofList, hrest]
  split
  · rfl
  · rfl
  · contradiction
  · contradiction

private theorem nameSuffix_dotted {stem rest : List Char} (hdot : '.' ∉ rest) :
    nameSuffix (String.ofList (stem ++ '.' :: rest)) =
      if stem = [] ∨ rest = [] then "" else String.ofList ('.' :: rest) := by
  have hback := bne_dot_of_mem_reverse hdot
  have hreverse : (stem ++ '.' :: rest).reverse = rest.reverse ++ '.' :: stem.reverse := by simp
  have htake : (rest.reverse ++ '.' :: stem.reverse).takeWhile (· != '.') = rest.reverse := by
    rw [List.takeWhile_append_of_pos hback, List.takeWhile_cons_of_neg (by simp), List.append_nil]
  have hdrop : (rest.reverse ++ '.' :: stem.reverse).dropWhile (· != '.') =
      '.' :: stem.reverse := by
    rw [List.dropWhile_append_of_pos hback, List.dropWhile_cons_of_neg (by simp)]
  simp only [nameSuffix, String.toList_ofList, hreverse, htake, hdrop]
  split
  · next hrest => rw [if_pos (.inr (List.reverse_eq_nil_iff.mp hrest))]
  · contradiction
  · next heq _ => rw [if_pos (.inl (List.reverse_eq_nil_iff.mp (List.cons.inj heq).2))]
  · next hstem heq hrest =>
    obtain ⟨rfl, rfl⟩ := List.cons.inj heq
    rw [imp_false, List.reverse_eq_nil_iff] at hstem hrest
    rw [if_neg (not_or.mpr ⟨hstem, hrest⟩), List.reverse_reverse]

private theorem exists_lastDot {name : List Char} (h : '.' ∈ name) :
    ∃ stem rest, name = stem ++ '.' :: rest ∧ '.' ∉ rest := by
  obtain ⟨front, back, heq, hfront⟩ := List.eq_append_cons_of_mem (List.mem_reverse.mpr h)
  refine ⟨back.reverse, front.reverse, ?_, by simpa using hfront⟩
  rw [← List.reverse_reverse name, heq]
  simp

theorem ending_iff {name ending : List Char} :
    Ending name ending ↔ nameSuffix (String.ofList name) = String.ofList ending := by
  constructor
  · rintro (hdot | ⟨hdot, hedge⟩ | ⟨hdot, hstem, hrest⟩)
    · exact nameSuffix_undotted hdot
    · rw [nameSuffix_dotted hdot, if_pos hedge, String.ofList_nil]
    · rw [nameSuffix_dotted hdot, if_neg (not_or.mpr ⟨hstem, hrest⟩)]
  · intro h
    by_cases hmem : '.' ∈ name
    · obtain ⟨stem, rest, rfl, hdot⟩ := exists_lastDot hmem
      rw [nameSuffix_dotted hdot] at h
      split at h
      · next hedge =>
        obtain rfl := String.ofList_injective h
        exact .edge hdot hedge
      · next hinner =>
        obtain ⟨hstem, hrest⟩ := not_or.mp hinner
        obtain rfl := String.ofList_injective h
        exact .dotted hdot hstem hrest
    · rw [nameSuffix_undotted hmem] at h
      obtain rfl := String.ofList_injective h
      exact .undotted hmem

private theorem lastName_join_concat (root : Path) (names : List String) (name : String) :
    (root.join (names ++ [name])).lastName = name := by
  rw [Path.lastName, Path.join, ← List.append_assoc, List.getLast?_concat, Option.getD_some]

private theorem hasSuffix_join_concat_iff {root : Path} {names suffixes : List String}
    {name : String} :
    hasSuffix suffixes (root.join (names ++ [name])) ↔
      ∃ suffix ∈ suffixes, Ending name.toList suffix.toList := by
  rw [hasSuffix, lastName_join_concat, List.contains_iff_mem]
  simp only [ending_iff, String.ofList_toList]
  exact ⟨fun h => ⟨_, h, rfl⟩, fun ⟨suffix, hsuffix, heq⟩ => heq ▸ hsuffix⟩

/-! ### The order of paths -/

theorem Path.le_iff {a b : Path} : a.le b ↔ a.names ≤ b.names := by
  have hlex : (b.names.lex a.names fun x y => decide (x < y)) ↔ b.names < a.names := by
    rw [List.lex_eq_true_iff_lex]
    simp only [decide_eq_true_eq]
    exact Iff.rfl
  rw [Path.le, Bool.not_eq_true', Bool.eq_false_iff, ne_eq, hlex, not_lt]

namespace Node

private theorem mem_names_of_mem_entryPaths {entries : List (String × Node)} {name : String}
    {names : List String} (h : name :: names ∈ entryPaths entries) :
    name ∈ entries.map Prod.fst := by
  obtain ⟨bytes, hbelow⟩ := mem_entryPaths_iff.mp h
  obtain ⟨child, hmem, -⟩ := below_cons_iff.mp hbelow
  exact List.mem_map_of_mem hmem

mutual

/-- A proper tree leads to each of its files in one way. -/
theorem nodup_filePaths : ∀ node : Node, node.isProper → node.filePaths.Nodup
  | .file _, _ => List.nodup_singleton _
  | .directory entries, h => nodup_entryPaths entries h

theorem nodup_entryPaths : ∀ entries : List (String × Node), areProper entries →
    (entryPaths entries).Nodup
  | [], _ => List.nodup_nil
  | (name, node) :: later, h => by
    obtain ⟨-, hfresh, hnode, hlater⟩ := areProper_cons_iff.mp h
    rw [entryPaths]
    refine ((nodup_filePaths node hnode).map fun _ _ heq => (List.cons.inj heq).2).append
      (nodup_entryPaths later hlater) ?_
    intro names hnames hothers
    obtain ⟨rest, -, rfl⟩ := List.mem_map.mp hnames
    exact hfresh (mem_names_of_mem_entryPaths hothers)

end

end Node

/-! ### What a list of templates holds -/

section Listing

variable {root path : Path} {entries : List (String × Node)} {suffixes : List String}

/-- Templates are the files with one of the endings, whatever their depth. -/
theorem mem_templatesBelow_iff :
    path ∈ templatesBelow root entries suffixes ↔
      ∃ names name bytes, (Node.directory entries).Below (names ++ [name]) (.file bytes) ∧
        path = root.join (names ++ [name]) ∧
        ∃ suffix ∈ suffixes, Ending name.toList suffix.toList := by
  simp only [templatesBelow, List.mem_filter, List.mem_mergeSort, List.mem_map]
  constructor
  · rintro ⟨⟨names, hnames, rfl⟩, hsuffix⟩
    obtain ⟨bytes, hbelow⟩ := Node.mem_entryPaths_iff.mp hnames
    -- a file is no directory, so that some name leads to it
    obtain rfl | ⟨front, name, rfl⟩ := names.eq_nil_or_concat'
    · cases Node.below_nil_iff.mp hbelow
    · exact ⟨front, name, bytes, hbelow, rfl, hasSuffix_join_concat_iff.mp hsuffix⟩
  · rintro ⟨names, name, bytes, hbelow, rfl, hsuffix⟩
    exact ⟨⟨_, Node.mem_entryPaths_iff.mpr ⟨bytes, hbelow⟩, rfl⟩,
      hasSuffix_join_concat_iff.mpr hsuffix⟩

/-- Templates are listed in the order of their paths, and none twice. -/
theorem pairwise_templatesBelow (h : Node.areProper entries) :
    (templatesBelow root entries suffixes).Pairwise fun a b => a.names < b.names := by
  have htrans (a b c : Path) (hab : a.le b) (hbc : b.le c) : a.le c :=
    Path.le_iff.mpr ((Path.le_iff.mp hab).trans (Path.le_iff.mp hbc))
  have htotal (a b : Path) : a.le b || b.le a := by
    rw [Bool.or_eq_true, Path.le_iff, Path.le_iff]
    exact le_total _ _
  have hsorted := List.pairwise_mergeSort htrans htotal ((Node.entryPaths entries).map root.join)
  have hdistinct :
      ((((Node.entryPaths entries).map root.join).mergeSort Path.le).map Path.names).Nodup := by
    rw [((List.mergeSort_perm _ _).map _).nodup_iff, List.map_map]
    exact (Node.nodup_entryPaths entries h).map fun _ _ heq => List.append_cancel_left heq
  refine (hsorted.imp₂ (fun a b hle hne => ?_) (List.pairwise_map.mp hdistinct)).filter _
  exact lt_of_le_of_ne (Path.le_iff.mp hle) hne

/-- What two trees have in common if they hold the same files and directories, in whatever order. -/
structure Node.SameContent (node other : Node) : Prop where
  files : ∀ names bytes, node.Below names (.file bytes) ↔ other.Below names (.file bytes)
  directories : ∀ names,
    (∃ entries, node.Below names (.directory entries)) ↔
      ∃ entries, other.Below names (.directory entries)

private theorem Node.SameContent.forall_below {node other : Node} (h : node.SameContent other)
    {P : List String → Prop} (hnode : ∀ names target, node.Below names target → P names) :
    ∀ names target, other.Below names target → P names := by
  intro names target hbelow
  cases target with
  | file bytes => exact hnode names _ ((h.files names bytes).mpr hbelow)
  | directory below =>
    obtain ⟨entries, hentries⟩ := (h.directories names).mpr ⟨below, hbelow⟩
    exact hnode names _ hentries

/-- The list of templates depends on the content of the directory alone. -/
private theorem templatesBelow_congr {others : List (String × Node)}
    (hentries : Node.areProper entries) (hothers : Node.areProper others)
    (h : (Node.directory entries).SameContent (.directory others)) :
    templatesBelow root entries suffixes = templatesBelow root others suffixes := by
  have hnodup {paths : List Path} (hpaths : paths.Pairwise fun a b => a.names < b.names) :
      paths.Nodup := by
    refine hpaths.imp fun {a b} hlt => ?_
    rintro rfl
    exact lt_irrefl _ hlt
  have hperm : (templatesBelow root entries suffixes).Perm
      (templatesBelow root others suffixes) := by
    rw [List.perm_ext_iff_of_nodup (hnodup (pairwise_templatesBelow hentries))
      (hnodup (pairwise_templatesBelow hothers))]
    intro path
    simp only [mem_templatesBelow_iff, h.files]
  exact hperm.eq_of_pairwise (fun a b _ _ hab hba => absurd (hab.trans hba) (lt_irrefl _))
    (pairwise_templatesBelow hentries) (pairwise_templatesBelow hothers)

/-- **A directory is listed in full, in the order of its paths**, whatever order the tree has: each
file below it with one of the endings once, and nothing else. It is not listed exactly if something
below it has a path that is too long: in a tree, which has no permissions and no limit on its depth,
nothing else ends a list. -/
theorem templatePaths_directory {fs : FileSystem} (hfs : fs.Proper)
    (hroot : fs.resolve root = .ok (.directory entries)) (suffixes : List String) :
    ((∃ paths, templatePaths fs root suffixes = .ok paths) ↔
      ∀ names target, (Node.directory entries).Below names target →
        (root.join names).isTooLong = false) ∧
    (∀ error, templatePaths fs root suffixes = .error error →
      ∃ names target, (Node.directory entries).Below names target ∧
        error.path = root.join names ∧ error.path.isTooLong) ∧
    ∀ paths, templatePaths fs root suffixes = .ok paths →
      paths.Pairwise (fun a b => a.names < b.names) ∧
      (∀ path, path ∈ paths ↔ ∃ names name bytes,
        (Node.directory entries).Below (names ++ [name]) (.file bytes) ∧
          path = root.join (names ++ [name]) ∧
          ∃ suffix ∈ suffixes, Ending name.toList suffix.toList) ∧
      ∀ (other : FileSystem) (others : List (String × Node)), other.Proper →
        other.resolve root = .ok (.directory others) →
        (Node.directory entries).SameContent (.directory others) →
        templatePaths other root suffixes = .ok paths := by
  have hentries : Node.areProper entries := hfs.isProper_of_resolve hroot
  refine ⟨?_, fun error herror => ?_, fun paths hpaths => ?_⟩
  · simp only [templatePaths_eq_ok_iff hroot, exists_and_left, exists_eq', and_true]
  · obtain ⟨names, target, hbelow, heq, hlong⟩ :=
      exists_below_of_obstacle (obstacle_of_templatePaths_eq_error hroot herror)
    exact ⟨names, target, hbelow, heq, heq ▸ hlong⟩
  · obtain ⟨hshort, rfl⟩ := (templatePaths_eq_ok_iff hroot).mp hpaths
    refine ⟨pairwise_templatesBelow hentries, fun path => mem_templatesBelow_iff, ?_⟩
    intro other others hother hothers hsame
    rw [templatePaths_eq_ok_iff hothers]
    exact ⟨hsame.forall_below hshort,
      (templatesBelow_congr hentries (hother.isProper_of_resolve hothers) hsame).symm⟩

end Listing

/-- A directory `a` next to a file `a.html`: what stands in the directory comes first, and a file
that is named by an ending alone has none. -/
theorem templatePaths_directory_site :
    let fs := ((FileSystem.blank.addFile (Path.parse "a.html") []).addFile
      (Path.parse "a/b.html") []).addFile (Path.parse "a/.html") []
    let site : List (String × Node) :=
      [("a.html", .file []), ("a", .directory [("b.html", .file []), (".html", .file [])])]
    fs.Proper ∧ fs.resolve (Path.parse ".") = .ok (.directory site) ∧
      ∃ paths, templatePaths fs (Path.parse ".") [".html"] = .ok paths ∧
        paths.Pairwise (fun a b => a.names < b.names) ∧
        Path.parse "a/b.html" ∈ paths ∧ Path.parse "a.html" ∈ paths ∧
        Path.parse "a/.html" ∉ paths := by
  intro fs site
  have hfs : fs.Proper :=
    ((FileSystem.proper_blank.addFile _ (by decide +kernel)).addFile _ (by decide +kernel)).addFile
      _ (by decide +kernel)
  have hsite : fs.resolve (Path.parse ".") = .ok (.directory site) := by
    rw [FileSystem.resolve, if_neg (by decide +kernel), if_neg (by decide +kernel)]
    rfl
  obtain ⟨hlisted, -, hpaths⟩ := templatePaths_directory hfs hsite [".html"]
  have hshort : ∀ names target, (Node.directory site).Below names target →
      ((Path.parse ".").join names).isTooLong = false :=
    Node.forall_below_iff.mpr ⟨by decide +kernel, by decide +kernel, by decide +kernel⟩
  obtain ⟨paths, hok⟩ := hlisted.mpr hshort
  obtain ⟨hsorted, hmem, -⟩ := hpaths paths hok
  have hhtml {names : List String} {name : String} (hfile : names ++ [name] ∈ Node.entryPaths site)
      (hending : nameSuffix name = ".html") : (Path.parse ".").join (names ++ [name]) ∈ paths := by
    obtain ⟨bytes, hbelow⟩ := Node.mem_entryPaths_iff.mp hfile
    refine (hmem _).mpr ⟨names, name, bytes, hbelow, rfl, ".html", List.mem_singleton_self _, ?_⟩
    rw [ending_iff, String.ofList_toList, String.ofList_toList, hending]
  refine ⟨hfs, hsite, paths, hok, hsorted, ?_, ?_, fun hhidden => ?_⟩
  · exact hhtml (show ["a"] ++ ["b.html"] ∈ Node.entryPaths site by decide +kernel)
      (by decide +kernel)
  · exact hhtml (show [] ++ ["a.html"] ∈ Node.entryPaths site by decide +kernel)
      (by decide +kernel)
  · obtain ⟨names, name, bytes, -, heq, suffix, hsuffix, hending⟩ := (hmem _).mp hhidden
    have hname : ".html" = name := by
      rw [← lastName_join_concat (Path.parse ".") names name, ← heq]
      decide +kernel
    rw [List.mem_singleton.mp hsuffix, ← hname, ending_iff] at hending
    exact absurd hending (by decide +kernel)

/-! ### A path that is too long -/

/-- Down into a directory and up again, a number of times. -/
def roundTrips (name : String) : Nat → List String
  | 0 => []
  | count + 1 => name :: ".." :: roundTrips name count

/-- Going down and up again leads nowhere. -/
private theorem walk_roundTrips {entries below : List (String × Node)} {above : List Node}
    {name : String}
    (hname : isEntryName name) (hlookup : entries.lookup name = some (.directory below))
    (count : Nat) (rest : List String) :
    (Node.directory entries).walk above (roundTrips name count ++ rest) =
      (Node.directory entries).walk above rest := by
  obtain ⟨hdots, hsize, -⟩ := isEntryName_iff.mp hname
  induction count with
  | zero => rfl
  | succ count ih =>
    rw [roundTrips, List.cons_append, List.cons_append,
      Node.walk_cons_of_lookup hdots (Nat.not_lt.mpr hsize) hlookup, Node.walk, if_pos rfl]
    exact ih

/-- The bytes that names take up with a slash behind each. -/
def writtenBytes : List String → Nat
  | [] => 0
  | name :: names => name.utf8ByteSize + 1 + writtenBytes names

private theorem utf8ByteSize_intercalate_slash {names : List String} (hne : names ≠ []) :
    (String.intercalate "/" names).utf8ByteSize + 1 = writtenBytes names := by
  induction names with
  | nil => contradiction
  | cons name names ih =>
    cases names with
    | nil => simp [writtenBytes]
    | cons next names =>
      have hrest := ih (List.cons_ne_nil next names)
      have hslash : "/".utf8ByteSize = 1 := by decide +kernel
      rw [String.intercalate_cons_cons, String.utf8ByteSize_append, String.utf8ByteSize_append,
        writtenBytes, ← hrest, hslash]
      omega

private theorem isTooLong_iff_writtenBytes {names : List String} (h : 1 < writtenBytes names) :
    Path.isTooLong ⟨.here, names⟩ ↔ pathBytesLimit < writtenBytes names := by
  have hne : names ≠ [] := by
    rintro rfl
    simp [writtenBytes] at h
  have hsize := utf8ByteSize_intercalate_slash hne
  have hwritten : Anchor.here.display ++ String.intercalate "/" names =
      String.intercalate "/" names := String.empty_append
  have hdisplay : Path.display ⟨.here, names⟩ = String.intercalate "/" names := by
    rw [Path.display, hwritten, if_neg]
    intro hempty
    rw [hempty, String.utf8ByteSize_empty] at hsize
    omega
  rw [Path.isTooLong, decide_eq_true_eq, hdisplay]
  omega

private theorem writtenBytes_roundTrips (count : Nat) (rest : List String) :
    writtenBytes (roundTrips "d" count ++ rest) = 5 * count + writtenBytes rest := by
  induction count with
  | zero => simp [roundTrips]
  | succ count ih =>
    have hdown : "d".utf8ByteSize = 1 := by decide +kernel
    have hup : "..".utf8ByteSize = 2 := by decide +kernel
    rw [roundTrips, List.cons_append, List.cons_append, writtenBytes, writtenBytes, ih, hdown, hup]
    omega

private theorem eq_or_eq_of_mem_roundTrips {known name : String} {count : Nat}
    (h : known ∈ roundTrips name count) : known = name ∨ known = ".." := by
  induction count with
  | zero => simp [roundTrips] at h
  | succ count ih =>
    rw [roundTrips, List.mem_cons, List.mem_cons] at h
    obtain rfl | rfl | h := h
    · exact .inl rfl
    · exact .inr rfl
    · exact ih h

/-- A working directory in which one directory holds one template. -/
def oneTemplate : FileSystem :=
  FileSystem.blank.addFile (Path.parse "d/f.html") []

theorem resolve_oneTemplate {count : Nat} (hcount : 5 * count + 2 ≤ pathBytesLimit) :
    oneTemplate.resolve ⟨.here, roundTrips "d" count ++ ["d"]⟩ =
      .ok (.directory [("f.html", .file [])]) := by
  have hd : writtenBytes ["d"] = 2 := by decide +kernel
  have hbytes := writtenBytes_roundTrips count ["d"]
  rw [FileSystem.resolve_eq_ok_iff]
  refine ⟨fun name hname => ?_, ?_, ?_⟩
  · have hname : name = "d" ∨ name = ".." := by
      rcases List.mem_append.mp hname with hname | hname
      · exact eq_or_eq_of_mem_roundTrips hname
      · exact .inl (List.mem_singleton.mp hname)
    rcases hname with rfl | rfl
    · decide +kernel
    · decide +kernel
  · rw [Bool.eq_false_iff, ne_eq, isTooLong_iff_writtenBytes (by omega)]
    omega
  · have hroot : oneTemplate.root =
        .directory [("", .directory [("d", .directory [("f.html", .file [])])])] := by rfl
    have hnames : oneTemplate.absoluteNames ⟨.here, roundTrips "d" count ++ ["d"]⟩ =
        "" :: (roundTrips "d" count ++ ["d"]) := rfl
    rw [hroot, hnames, Node.walk_cons_of_lookup (by decide +kernel) (by decide +kernel) rfl,
      walk_roundTrips (by decide +kernel) rfl]
    rfl

theorem templatePaths_oneTemplate {count : Nat} (hroot : 5 * count + 2 ≤ pathBytesLimit)
    (hfile : pathBytesLimit < 5 * count + 9) :
    templatePaths oneTemplate ⟨.here, roundTrips "d" count ++ ["d"]⟩ =
      .error ⟨⟨.here, roundTrips "d" count ++ ["d", "f.html"]⟩⟩ := by
  have hjoin : Path.join ⟨.here, roundTrips "d" count ++ ["d"]⟩ ["f.html"] =
      ⟨.here, roundTrips "d" count ++ ["d", "f.html"]⟩ := by
    rw [Path.join, List.append_assoc, List.singleton_append]
  have hlong : Path.isTooLong ⟨.here, roundTrips "d" count ++ ["d", "f.html"]⟩ := by
    have hbytes := writtenBytes_roundTrips count ["d", "f.html"]
    have hrest : writtenBytes ["d", "f.html"] = 9 := by decide +kernel
    rw [isTooLong_iff_writtenBytes (by omega)]
    omega
  have hfiles : Node.entryPaths [("f.html", .file [])] = [["f.html"]] := rfl
  have hdirectories : Node.entryDirectories [("f.html", .file [])] = [] := rfl
  rw [templatePaths, listTemplates_directory (resolve_oneTemplate hroot), listBelow, hfiles,
    hdirectories]
  simp only [List.map_nil, List.mergeSort_nil, List.find?_nil, List.map_cons, hjoin,
    List.mergeSort_singleton, List.find?_cons, hlong, Listing.complete, Option.map_some]

/-- A directory with one template, reached on a way of 4091 bytes: the list breaks off at the
template, whose path has a few bytes more than can be asked about. -/
theorem templatePaths_directory_longPath :
    let root : Path := ⟨.here, roundTrips "d" 818 ++ ["d"]⟩
    oneTemplate.Proper ∧ oneTemplate.resolve root = .ok (.directory [("f.html", .file [])]) ∧
      (Node.directory [("f.html", .file [])]).Below ["f.html"] (.file []) ∧
      Ending "f.html".toList ".html".toList ∧ ".html" ∈ templateSuffixes ∧
      templatePaths oneTemplate root =
        .error ⟨⟨.here, roundTrips "d" 818 ++ ["d", "f.html"]⟩⟩ := by
  refine ⟨FileSystem.proper_blank.addFile _ (by decide +kernel), resolve_oneTemplate (by decide),
    .entry List.mem_cons_self (.here _), ?_, List.mem_cons_self,
    templatePaths_oneTemplate (by decide) (by decide)⟩
  rw [ending_iff]
  decide +kernel

end TemplateLint.Files
