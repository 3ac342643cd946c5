import Mathlib.Data.List.Perm.Basic
import TemplateLint.Proofs.Arguments
import TemplateLint.Proofs.LintVerdicts
import TemplateLint.Proofs.Reports

/-!
# Runs of the lint command

A run reads its arguments, lists the templates of each and judges them in turn.

* If no path is refused for its length, the run comes to an end, and its outcome is put together
  from its templates (`run_reports`).
* It breaks off exactly if some path is refused so (`run_operands`). Such a path could be
  complained about as any other, since loading it fails in an orderly way; but whether it is a
  directory is asked first, and that question has no answer (`run_of_nameTooLong`).
* What it has written by then is what a run over the templates before the break would have written
  (`course_of_breakdown`).
-/

namespace TemplateLint.CommandLine.LintCommand

open TemplateLint.Files TemplateLint.Text

variable {fs : FileSystem} {root path : Path} {settings : LintSettings} {options : Options}

/-! ### The course of a run -/

/-- Where no code was left blank, the arguments are worked off in turn. -/
theorem course_eq {codes : List String} (hdisabled : settings.disabled = codes.map some) :
    course fs settings =
      Course.inTurn (lintArgument fs settings (LintCommand.options codes)) settings.paths
        (outcome settings []) := by
  have hcodes : settings.disabled.mapM id = some codes := by
    have hpure := List.mapM_pure (m := Option) (f := id) (l := codes)
    rw [List.map_id] at hpure
    rw [hdisabled, List.mapM_map]
    exact hpure
  simp only [course, hcodes]
  rfl

/-- **A run judges its templates one after the other**, argument by argument. -/
theorem carryOut_eq_ok (hfs : fs.Proper) {codes : List String}
    (hdisabled : settings.disabled = codes.map some)
    (hpaths : ∀ root ∈ settings.paths, fs.Answers root) :
    carryOut fs settings = .ok (outcome settings
      ((settings.paths.flatMap (templates fs)).map (verdict fs (LintCommand.options codes)))) := by
  rw [carryOut, course_eq hdisabled, inTurn_lintArgument_eq hfs hpaths]
  rfl

/-! ### Codes that are switched off -/

/-- The codes that are to be switched off exist. -/
private def KnownCodes (settings : LintSettings) : Prop :=
  ∀ code, some code ∈ settings.disabled → ∃ kind : Kind, kind.code = code

private theorem knownCodes_of_readFormat {value : String} {set : LintSettings → LintSettings}
    (h : readFormat value = .ok set) (hsettings : KnownCodes settings) :
    KnownCodes (set settings) := by
  unfold readFormat at h
  split at h
  · cases h
    exact hsettings
  · cases h
    exact hsettings
  · cases h

private theorem knownCodes_of_readDisabled {value : String} {set : LintSettings → LintSettings}
    (h : readDisabled value = .ok set) (hsettings : KnownCodes settings) :
    KnownCodes (set settings) := by
  unfold readDisabled at h
  split at h
  · next kind _ =>
    cases h
    intro code hcode
    rcases List.mem_append.mp hcode with hcode | hcode
    · exact hsettings code hcode
    · exact ⟨kind, (Option.some.inj (List.mem_singleton.mp hcode)).symm⟩
  · cases h

private theorem preserves_knownCodes : interface.Preserves KnownCodes := by
  refine ⟨?_, fun _ _ hsettings => hsettings⟩
  simp only [interface, List.forall_mem_cons, List.not_mem_nil, false_imp_iff, implies_true,
    and_true]
  refine ⟨trivial, ⟨?_, ?_⟩, ⟨?_, ?_⟩, ?_, ?_⟩
  · exact fun _ _ hset _ => knownCodes_of_readFormat hset
  · exact fun _ hsettings => hsettings
  · exact fun _ _ hset _ => knownCodes_of_readDisabled hset
  · intro settings hsettings code hcode
    rcases List.mem_append.mp hcode with hcode | hcode
    · exact hsettings code hcode
    · simp at hcode
  · exact fun _ hsettings => hsettings
  · exact fun _ hsettings => hsettings

/-- The codes that arguments switch off can be switched off. -/
private theorem withDisabled_of_parse {arguments codes : List String}
    (h : interface.parse {} arguments = .ok settings)
    (hdisabled : settings.disabled = codes.map some) :
    ({} : Options).withDisabled codes = .ok (LintCommand.options codes) := by
  have hknown : KnownCodes settings :=
    preserves_knownCodes.parse (fun code hcode => by simp at hcode) h
  have hcodes : ∀ code ∈ codes, (Catalogue.find? code).isSome := by
    intro code hcode
    obtain ⟨kind, rfl⟩ := hknown code (by simpa [hdisabled] using hcode)
    simp [Kind.find?_code]
  rw [LintCommand.options, Options.withDisabled_eq_ok hcodes]

private theorem options_nil : LintCommand.options [] = {} := by
  rw [LintCommand.options, Options.withDisabled_eq_ok (by simp)]
  simp [Options.without]

/-! ### Runs -/

private theorem run_of_parse {arguments : List String}
    (h : interface.parse {} arguments = .ok settings) :
    run fs arguments = carryOut fs settings := by
  rw [run, start, Interface.dispatch, h, carryOut]

private theorem mapM_templatesAt (hfs : fs.Proper) {roots : List Path}
    (hroots : ∀ root ∈ roots, fs.Answers root) :
    roots.mapM (templatesAt fs) = .ok (roots.map (templates fs)) := by
  refine mapM_eq_ok fun root hroot => ?_
  exact (templatesAt_eq_ok_iff hfs).mpr ⟨(hroots root hroot).covers, rfl⟩

theorem carryOut_reports (settings : LintSettings) (hfs : fs.Proper) {codes : List String}
    (hverbose : settings.verbose = false) (hdisabled : settings.disabled = codes.map some)
    (hpaths : ∀ root ∈ settings.paths, fs.Answers root) :
    ∃ outcome, carryOut fs settings = .ok outcome ∧
      Reports fs settings (LintCommand.options codes) (settings.paths.flatMap (templates fs))
        outcome := by
  refine ⟨_, carryOut_eq_ok hfs hdisabled hpaths, reports_outcome (fun path hpath => ?_) hverbose⟩
  obtain ⟨root, hroot, hpath⟩ := List.mem_flatMap.mp hpath
  obtain ⟨hanswers, -⟩ := answers_of_mem_templates hfs (hpaths root hroot) hpath
  exact FileSystem.resolve_ne_embeddedNul hanswers.nul

/-- A directory can be replaced by the templates below it. -/
theorem carryOut_expand (hfs : fs.Proper) {codes : List String} {before after paths : List Path}
    (hdisabled : settings.disabled = codes.map some)
    (hpaths : ∀ root ∈ settings.paths, fs.Answers root)
    (hroot : settings.paths = before ++ root :: after)
    (htemplates : templatesAt fs root = .ok paths) :
    carryOut fs { settings with paths := before ++ (paths ++ after) } = carryOut fs settings := by
  obtain ⟨-, rfl⟩ := (templatesAt_eq_ok_iff hfs).mp htemplates
  have hmem : root ∈ settings.paths := by simp [hroot]
  have hexpanded : ∀ path ∈ before ++ (templates fs root ++ after), fs.Answers path := by
    intro path hpath
    rcases List.mem_append.mp hpath with hpath | hpath
    · exact hpaths path (by simp [hroot, hpath])
    · rcases List.mem_append.mp hpath with hpath | hpath
      · exact (answers_of_mem_templates hfs (hpaths root hmem) hpath).1
      · exact hpaths path (by simp [hroot, hpath])
  -- each template that was listed is listed once more as itself
  have hlisted : (templates fs root).flatMap (templates fs) = templates fs root := by
    calc (templates fs root).flatMap (templates fs)
        = (templates fs root).flatMap fun path => [path] := by
          refine List.flatMap_congr fun path hpath => ?_
          exact (answers_of_mem_templates hfs (hpaths root hmem) hpath).2
      _ = templates fs root := List.flatMap_singleton' _
  have hexpand : carryOut fs { settings with paths := before ++ (templates fs root ++ after) } =
      .ok (outcome settings (((before ++ (templates fs root ++ after)).flatMap (templates fs)).map
        (verdict fs (LintCommand.options codes)))) :=
    carryOut_eq_ok hfs hdisabled hexpanded
  rw [hexpand, carryOut_eq_ok hfs hdisabled hpaths, hroot, List.flatMap_append,
    List.flatMap_append, List.flatMap_append, List.flatMap_cons, hlisted]

private theorem isDirectory_eq_ok_true_iff :
    fs.isDirectory root = .ok true ↔ ∃ entries, fs.resolve root = .ok (.directory entries) := by
  simp only [FileSystem.isDirectory, FileSystem.find?]
  rcases fs.resolve root with (_ | _ | _ | _) | (_ | _) <;>
    simp [bind, Except.bind, pure, Except.pure]

/-! ### Paths that are too long -/

/-- A path that is refused for its length could be complained about, but it is asked about first. -/
theorem run_of_nameTooLong {argument : String} (hdash : argument.toList.head? ≠ some '-')
    (h : fs.resolve (Path.parse argument) = .error .nameTooLong) :
    run fs [argument] = .error (.pathTooLong ⟨Path.parse argument⟩) ∧
      loadTemplate fs (Path.parse argument) =
        .error (.unreadable ⟨Path.parse argument, .nameTooLong⟩) := by
  constructor
  · have hparse : interface.parse {} [argument] = .ok { paths := [Path.parse argument] } :=
      Interface.parse_operands rfl (List.cons_ne_nil _ _) (by simpa using hdash)
    have hlisting : listingAt fs (Path.parse argument) =
        { paths := [], obstacle := some ⟨Path.parse argument⟩ } := by
      rw [listingAt_eq, h]
    have hdisabled : ({ paths := [Path.parse argument] } : LintSettings).disabled =
      ([] : List String).map some := rfl
    rw [run_of_parse hparse, carryOut, course_eq hdisabled, Course.inTurn, lintArgument, hlisting]
    rfl
  · rw [loadTemplate, h]

/-- A name of a number of letters. -/
private def letters (count : Nat) : String :=
  String.ofList (List.replicate count 'x')

private theorem eq_of_mem_letters {count : Nat} {c : Char} (h : c ∈ (letters count).toList) :
    c = 'x' := by
  rw [letters, String.toList_ofList] at h
  exact List.eq_of_mem_replicate h

private theorem not_mem_letters {count : Nat} {c : Char} (hc : c ≠ 'x') :
    c ∉ (letters count).toList :=
  fun h => hc (eq_of_mem_letters h)

private theorem utf8ByteSize_letters (count : Nat) : (letters count).utf8ByteSize = count := by
  induction count with
  | zero => rfl
  | succ count ih =>
    rw [letters, List.replicate_succ, String.ofList_cons, String.utf8ByteSize_append, ← letters,
      ih, String.utf8ByteSize_singleton]
    exact Nat.add_comm 1 count

private theorem isName_letters {count : Nat} (h : 0 < count) :
    Path.isName (letters count).toList := by
  obtain ⟨count, rfl⟩ := Nat.exists_eq_add_of_lt h
  rw [letters, String.toList_ofList, List.replicate_succ, Path.isName]
  simp

private theorem head?_ne_of_not_mem {text : List Char} {c : Char} (h : c ∉ text) :
    text.head? ≠ some c :=
  fun hhead => h (List.mem_of_head? hhead)

private theorem resolve_blank_of_nameTooLong {name : String} (hnul : '\x00' ∉ name.toList)
    (hdots : name ≠ "..") (hsize : maxNameBytes < name.utf8ByteSize) :
    FileSystem.blank.resolve ⟨.here, [name]⟩ = .error .nameTooLong := by
  rw [FileSystem.resolve_eq (by simpa using hnul)]
  split
  · rfl
  · have hstep : FileSystem.blank.root.walk [] ["", name] =
        Node.empty.walk [FileSystem.blank.root] [name] :=
      Node.walk_cons_of_lookup (by decide) (by decide) rfl
    exact hstep.trans (Node.walk_of_nameTooLong hdots hsize)

/-- A working directory in which one directory holds one template. -/
def sampleSite : FileSystem :=
  FileSystem.blank.addFile (Path.parse "site/index.html") [0x7B]

theorem proper_sampleSite : sampleSite.Proper :=
  FileSystem.proper_blank.addFile _ (by decide +kernel)

/-! ### Runs that come to an end -/

/-- **A run is made of its templates.** They are those of its arguments in turn, and the status is
`2` if one of them cannot be read, else `1` if one has errors, else `0`; what is written about them
is written in their order. So the order of the arguments does not matter to the status, and a
directory can be replaced by the templates below it. -/
theorem run_reports (hfs : fs.Proper) {arguments codes : List String}
    (hparse : interface.parse {} arguments = .ok settings)
    (hverbose : settings.verbose = false) (hdisabled : settings.disabled = codes.map some)
    (hnul : ∀ root ∈ settings.paths, ∀ name ∈ root.names, '\x00' ∉ name.toList)
    (hnames : ∀ root ∈ settings.paths, ∀ name ∈ root.names, name.utf8ByteSize ≤ maxNameBytes)
    (hshort : ∀ root ∈ settings.paths, ∀ path, fs.Covers root path → path.isTooLong = false) :
    ∃ options lists outcome, ({} : Options).withDisabled codes = .ok options ∧
      (∀ source, validate source options = .ok (options.report source)) ∧
      settings.paths.mapM (templatesAt fs) = .ok lists ∧
      run fs arguments = .ok outcome ∧
      Reports fs settings options lists.flatten outcome ∧
      (∀ paths : List Path, paths.Perm settings.paths →
        ∃ other, carryOut fs { settings with paths } = .ok other ∧
          other.status = outcome.status) ∧
      ∀ before root after paths, settings.paths = before ++ root :: after →
        fs.isDirectory root = .ok true → templatePaths fs root = .ok paths →
        carryOut fs { settings with paths := before ++ (paths ++ after) } = .ok outcome := by
  have hanswers : ∀ root ∈ settings.paths, fs.Answers root := fun root hroot =>
    hfs.answers (hnul root hroot) (hnames root hroot) (hshort root hroot)
  obtain ⟨result, hresult, hreports⟩ := carryOut_reports settings hfs hverbose hdisabled hanswers
  refine ⟨LintCommand.options codes, settings.paths.map (templates fs), result,
    withDisabled_of_parse hparse hdisabled, fun source => validate_eq_ok source _,
    mapM_templatesAt hfs hanswers, (run_of_parse hparse).trans hresult, ?_, ?_, ?_⟩
  · rw [← List.flatMap_def]
    exact hreports
  · intro paths hperm
    have hothers : ∀ root ∈ paths, fs.Answers root := fun root hroot =>
      hanswers root (hperm.mem_iff.mp hroot)
    obtain ⟨other, hother, hreported⟩ :=
      carryOut_reports { settings with paths } hfs hverbose hdisabled hothers
    refine ⟨other, hother, hreported.status_congr hreports fun path => ?_⟩
    simp only [List.mem_flatMap, hperm.mem_iff]
  · intro before root after paths hpaths hdirectory hlisted
    obtain ⟨entries, hentries⟩ := isDirectory_eq_ok_true_iff.mp hdirectory
    have htemplates : templatesAt fs root = .ok paths := by
      rw [templatesAt_eq, hentries]
      exact hlisted
    rw [carryOut_expand hfs hdisabled hanswers hpaths htemplates, hresult]

/-- A directory with one template, of which nothing is too long. -/
theorem run_reports_site :
    ∃ options lists outcome, ({} : Options).withDisabled [] = .ok options ∧
      [Path.parse "site"].mapM (templatesAt sampleSite) = .ok lists ∧
      run sampleSite ["site"] = .ok outcome ∧
      Reports sampleSite { paths := [Path.parse "site"] } options lists.flatten outcome := by
  have hparse : interface.parse {} ["site"] = .ok { paths := [Path.parse "site"] } :=
    Interface.parse_operands rfl (by decide) (by decide +kernel)
  have hsite : sampleSite.resolve (Path.parse "site") =
      .ok (.directory [("index.html", .file [0x7B])]) := by
    rw [FileSystem.resolve, if_neg (by decide +kernel), if_neg (by decide +kernel)]
    rfl
  have hbelow : ∀ names target,
      (Node.directory [("index.html", .file [0x7B])]).Below names target →
        ((Path.parse "site").join names).isTooLong = false :=
    Node.forall_below_iff.mpr ⟨by decide +kernel, by decide +kernel, by decide +kernel⟩
  have hshort : ∀ path, sampleSite.Covers (Path.parse "site") path → path.isTooLong = false := by
    rintro path (rfl | ⟨node, names, target, hnode, htarget, rfl⟩)
    · decide +kernel
    · obtain rfl := Except.ok.inj (hsite.symm.trans hnode)
      exact hbelow names target htarget
  have hdisabled : ({ paths := [Path.parse "site"] } : LintSettings).disabled =
    ([] : List String).map some := rfl
  obtain ⟨options, lists, outcome, hoptions, -, hlists, hrun, hreports, -, -⟩ :=
    run_reports proper_sampleSite hparse rfl hdisabled (by decide +kernel) (by decide +kernel)
      (by simpa using hshort)
  exact ⟨options, lists, outcome, hoptions, hlists, hrun, hreports⟩

/-- Seventeen names of 255 bytes make a path that ends the run, although it could be complained
about. -/
theorem run_reports_longPath :
    let path : Path := ⟨.here, List.replicate 17 (letters 255)⟩
    let argument := String.intercalate "/" path.names
    interface.parse {} [argument] = .ok { paths := [path] } ∧
      (∀ name ∈ path.names, '\x00' ∉ name.toList ∧ name.utf8ByteSize ≤ maxNameBytes) ∧
      loadTemplate .blank path = .error (.unreadable ⟨path, .nameTooLong⟩) ∧
      run .blank [argument] = .error (.pathTooLong ⟨path⟩) := by
  intro path argument
  have hmem : ∀ name ∈ path.names, name = letters 255 := fun name => List.eq_of_mem_replicate
  have hnames : ∀ name ∈ path.names, '\x00' ∉ name.toList ∧ name.utf8ByteSize ≤ maxNameBytes := by
    intro name hname
    rw [hmem name hname, utf8ByteSize_letters]
    exact ⟨not_mem_letters (by decide), by decide⟩
  have hread : Path.parse argument = path := by
    refine Path.parse_intercalate (by simp [path]) fun name hname => ?_
    rw [hmem name hname]
    exact ⟨isName_letters (by decide), not_mem_letters (by decide)⟩
  have hdash : argument.toList.head? ≠ some '-' := by
    refine head?_ne_of_not_mem fun h => ?_
    obtain ⟨name, hname, h⟩ := (Path.mem_intercalate_slash_iff (by decide)).mp h
    rw [hmem name hname] at h
    exact not_mem_letters (by decide) h
  have hresolve : FileSystem.blank.resolve path = .error .nameTooLong := by
    have hlong : path.isTooLong := by
      have hsize : path.names.length * 255 ≤ path.display.utf8ByteSize := by
        refine Path.mul_le_utf8ByteSize_display fun name hname => ?_
        rw [hmem name hname, utf8ByteSize_letters]
      rw [List.length_replicate] at hsize
      rw [Path.isTooLong, decide_eq_true_eq]
      exact Nat.le_trans (by decide) hsize
    rw [FileSystem.resolve_eq fun name hname => (hnames name hname).1, if_pos hlong]
  obtain ⟨hrun, hload⟩ := run_of_nameTooLong hdash (hread.symm ▸ hresolve)
  rw [hread] at hrun hload
  refine ⟨?_, hnames, hload, hrun⟩
  rw [← hread]
  exact Interface.parse_operands rfl (List.cons_ne_nil _ _) (by simpa using hdash)

/-! ### Runs that break off -/

section BreakingOff

variable {codes : List String} (hfs : fs.Proper) (hdisabled : settings.disabled = codes.map some)
  (hnul : ∀ root ∈ settings.paths, ∀ name ∈ root.names, '\x00' ∉ name.toList)
include hfs hdisabled hnul

/-- What breaks a run off is what ends the list of one of its arguments, and the first such argument
does. -/
theorem breakdown_course :
    (course fs settings).breakdown =
      settings.paths.findSome? fun root => (listingAt fs root).obstacle.map .pathTooLong := by
  rw [course_eq hdisabled]
  refine Course.breakdown_inTurn (fun root hroot sofar => ?_) _
  rw [lintArgument_eq hfs (hnul root hroot)]

/-- A run breaks off exactly if a path that it has to ask about is refused for its length. -/
theorem carryOut_eq_error_iff :
    (∃ breakdown, carryOut fs settings = .error breakdown) ↔
      ∃ root ∈ settings.paths, ∃ path, fs.Covers root path ∧
        fs.resolve path = .error .nameTooLong := by
  have hnone : (course fs settings).breakdown = none ↔ ∀ root ∈ settings.paths,
      ∀ path, fs.Covers root path → fs.resolve path ≠ .error .nameTooLong := by
    simp only [breakdown_course hfs hdisabled hnul, List.findSome?_eq_none_iff,
      Option.map_eq_none_iff, obstacle_listingAt_eq_none_iff hfs]
  simp only [carryOut, Course.ending_eq_error_iff, ← Option.ne_none_iff_exists', ne_eq, hnone]
  push Not
  rfl

/-- **What a run has written stays when it breaks off.** The arguments before the one at which it
breaks off are worked off to their ends, and this one as far as it could be listed. -/
theorem course_of_breakdown {breakdown : Breakdown}
    (h : (course fs settings).breakdown = some breakdown) :
    ∃ before root after path, settings.paths = before ++ root :: after ∧
      (∀ earlier ∈ before, fs.Answers earlier) ∧ breakdown = .pathTooLong ⟨path⟩ ∧
      fs.Covers root path ∧ fs.resolve path = .error .nameTooLong ∧
      (listingAt fs root).paths <+: templates fs root ∧
      (course fs settings).outcome = outcome settings
        ((before.flatMap (templates fs) ++ (listingAt fs root).paths).map
          (verdict fs (LintCommand.options codes))) := by
  have hfirst := h
  rw [breakdown_course hfs hdisabled hnul, List.findSome?_eq_some_iff] at hfirst
  obtain ⟨before, root, after, hpaths, hroot, hbefore⟩ := hfirst
  obtain ⟨error, hobstacle, rfl⟩ := Option.map_eq_some_iff.mp hroot
  have hmem : root ∈ settings.paths := by simp [hpaths]
  have hanswers : ∀ earlier ∈ before, fs.Answers earlier := by
    intro earlier hearlier
    refine ⟨hnul earlier (by simp [hpaths, hearlier]), ?_⟩
    exact (obstacle_listingAt_eq_none_iff hfs).mp
      (Option.map_eq_none_iff.mp (hbefore earlier hearlier))
  obtain ⟨hcovers, hlong⟩ :=
    covers_of_templatesAt_eq_error hfs (Listing.complete_eq_error_iff.mpr hobstacle)
  refine ⟨before, root, after, error.path, hpaths, hanswers, rfl, hcovers, hlong,
    paths_listingAt_isPrefix fs root, ?_⟩
  rw [course_eq hdisabled, hpaths, Course.inTurn_append, inTurn_lintArgument_eq hfs hanswers,
    Course.andThen, Course.inTurn, lintArgument_eq hfs (hnul root hmem), hobstacle]
  simp only [Option.map_some, Course.andThen, foldl_record, List.nil_append, List.map_append]

private theorem eq_pathTooLong_of_carryOut {breakdown : Breakdown}
    (h : carryOut fs settings = .error breakdown) :
    ∃ path, breakdown = .pathTooLong ⟨path⟩ ∧ fs.resolve path = .error .nameTooLong := by
  obtain ⟨-, -, -, path, -, -, heq, -, hlong, -⟩ :=
    course_of_breakdown hfs hdisabled hnul (Course.ending_eq_error_iff.mp h)
  exact ⟨path, heq, hlong⟩

private theorem answers_of_carryOut {outcome : Outcome} (h : carryOut fs settings = .ok outcome) :
    ∀ root ∈ settings.paths, fs.Answers root := by
  intro root hroot
  refine ⟨hnul root hroot, fun path hcovers hpath => ?_⟩
  obtain ⟨breakdown, hbreakdown⟩ :=
    (carryOut_eq_error_iff hfs hdisabled hnul).mpr ⟨root, hroot, path, hcovers, hpath⟩
  rw [h] at hbreakdown
  cases hbreakdown

end BreakingOff

/-- What can be loaded is a file that holds the bytes of a text. -/
private theorem exists_text_of_loadTemplate {source : List Char}
    (h : loadTemplate fs path = .ok source) :
    ∃ text, fs.resolve path = .ok (.file (Utf8.encode text)) := by
  unfold loadTemplate at h
  split at h
  · next bytes hfile =>
    have hdecode := mapError_eq_ok_iff.mp h
    unfold decodeTemplate at hdecode
    split at hdecode
    · next text htext =>
      obtain rfl := Utf8.decode_eq_ok_iff.mp htext
      exact ⟨text, hfile⟩
    · cases hdecode
  all_goals cases h

/-- A path that leads to no text cannot be loaded. -/
private theorem exists_fault_of_no_text (hnul : ∀ name ∈ path.names, '\x00' ∉ name.toList)
    (htext : ∀ text, fs.resolve path ≠ .ok (.file (Utf8.encode text))) :
    ∃ fault, loadTemplate fs path = .error (.unreadable ⟨path, fault⟩) := by
  obtain ⟨source, hsource⟩ | hfault := loadTemplate_cases (FileSystem.resolve_ne_embeddedNul hnul)
  · obtain ⟨text, hfile⟩ := exists_text_of_loadTemplate hsource
    exact absurd hfile (htext text)
  · exact hfault

/-- **Paths that cannot be read do not end a run**, unless one of them is refused for its length.
Then the run breaks off, and in a tree, which has no permissions and no limit on its depth, only
then. Any other path that is no directory and holds no text is
complained about once, the status is `2`, and the other arguments are judged as they would be. -/
theorem run_operands (hfs : fs.Proper) {arguments : List String} (hne : arguments ≠ [])
    (hdash : ∀ argument ∈ arguments, argument.toList.head? ≠ some '-')
    (hnul : ∀ argument ∈ arguments, '\x00' ∉ argument.toList) :
    ((∃ breakdown, run fs arguments = .error breakdown) ↔
      ∃ argument ∈ arguments, ∃ path, fs.Covers (Path.parse argument) path ∧
        fs.resolve path = .error .nameTooLong) ∧
    (∀ breakdown, run fs arguments = .error breakdown →
      ∃ path, breakdown = .pathTooLong ⟨path⟩ ∧ fs.resolve path = .error .nameTooLong) ∧
    ∀ outcome, run fs arguments = .ok outcome →
      ∃ lists, (arguments.map Path.parse).mapM (templatesAt fs) = .ok lists ∧
        Reports fs {} {} lists.flatten outcome ∧
        ∀ argument ∈ arguments,
          (∀ entries, fs.resolve (Path.parse argument) ≠ .ok (.directory entries)) →
          (∀ text, fs.resolve (Path.parse argument) ≠ .ok (.file (Utf8.encode text))) →
          outcome.status = 2 ∧
            templatesAt fs (Path.parse argument) = .ok [Path.parse argument] ∧
            shown fs {} {} (Path.parse argument) = "" ∧
            ∃ fault : LoadFault, complaint fs (Path.parse argument) =
              "Error: " ++ ("Cannot read template " ++ (Path.parse argument).display ++ ": " ++
                fault.message) ++ "\n" := by
  have hparse : interface.parse {} arguments = .ok { paths := arguments.map Path.parse } :=
    Interface.parse_operands rfl hne hdash
  have hnames : ∀ root ∈ arguments.map Path.parse, ∀ name ∈ root.names, '\x00' ∉ name.toList := by
    intro root hroot name hname hmem
    obtain ⟨argument, hargument, rfl⟩ := List.mem_map.mp hroot
    exact hnul argument hargument (Path.mem_of_mem_names hname hmem)
  have hdisabled : ({ paths := arguments.map Path.parse } : LintSettings).disabled =
      ([] : List String).map some := rfl
  rw [run_of_parse hparse]
  refine ⟨?_, fun breakdown => eq_pathTooLong_of_carryOut hfs hdisabled hnames, ?_⟩
  · rw [carryOut_eq_error_iff hfs hdisabled hnames]
    simp only [List.mem_map, exists_exists_and_eq_and]
  · intro outcome houtcome
    have hanswers := answers_of_carryOut hfs hdisabled hnames houtcome
    obtain ⟨result, hresult, hreports⟩ := carryOut_reports _ hfs rfl hdisabled hanswers
    obtain rfl := Except.ok.inj (houtcome.symm.trans hresult)
    rw [options_nil, List.flatMap_def] at hreports
    refine ⟨_, mapM_templatesAt hfs hanswers, { hreports with }, ?_⟩
    intro argument hargument hdirectory htext
    have hroot := List.mem_map_of_mem (f := Path.parse) hargument
    obtain ⟨fault, hfault⟩ := exists_fault_of_no_text (hnames _ hroot) htext
    have hself := templates_of_ne_directory hdirectory
    refine ⟨?_, ?_, ?_, fault, ?_⟩
    · refine hreports.status_eq_two_iff.mpr ⟨Path.parse argument, ?_, _, hfault⟩
      rw [← List.flatMap_def]
      exact List.mem_flatMap.mpr ⟨_, hroot, by simp [hself]⟩
    · exact (templatesAt_eq_ok_iff hfs).mpr ⟨(hanswers _ hroot).covers, hself⟩
    · simp only [shown, hfault]
    · simp only [complaint, hfault]

/-- A missing file does not keep the command from the file after it. -/
theorem run_operands_missing :
    ∃ outcome, run sampleSite ["gone.html", "site/index.html"] = .ok outcome ∧
      outcome.status = 2 := by
  have hgone : sampleSite.resolve (Path.parse "gone.html") = .error .notFound := by
    rw [FileSystem.resolve, if_neg (by decide +kernel), if_neg (by decide +kernel)]
    rfl
  have hindex : sampleSite.resolve (Path.parse "site/index.html") = .ok (.file [0x7B]) := by
    rw [FileSystem.resolve, if_neg (by decide +kernel), if_neg (by decide +kernel)]
    rfl
  have hne : ["gone.html", "site/index.html"] ≠ [] := by decide
  obtain ⟨hbroken, -, hended⟩ :=
    run_operands proper_sampleSite hne (by decide +kernel) (by decide +kernel)
  have hends : ¬ ∃ breakdown,
      run sampleSite ["gone.html", "site/index.html"] = .error breakdown := by
    rw [hbroken]
    rintro ⟨argument, hargument, path, hcovers, hpath⟩
    have hself : ∀ argument ∈ ["gone.html", "site/index.html"],
        (∀ entries, sampleSite.resolve (Path.parse argument) ≠ .ok (.directory entries)) ∧
          sampleSite.resolve (Path.parse argument) ≠ .error .nameTooLong := by
      simp [hgone, hindex]
    obtain ⟨hdirectory, hshort⟩ := hself argument hargument
    rw [hcovers.eq_root hdirectory] at hpath
    exact hshort hpath
  rw [← not_exists_eq_ok_iff, not_not] at hends
  obtain ⟨outcome, houtcome⟩ := hends
  obtain ⟨-, -, -, hcomplaint⟩ := hended outcome houtcome
  refine ⟨outcome, houtcome, ?_⟩
  obtain ⟨hstatus, -⟩ := hcomplaint "gone.html" (by decide) (by simp [hgone]) (by simp [hgone])
  exact hstatus

/-- A single name of 256 bytes ends the run, although it could be complained about. -/
theorem run_operands_longName :
    (letters 256).toList.head? ≠ some '-' ∧ '\x00' ∉ (letters 256).toList ∧
      loadTemplate .blank (Path.parse (letters 256)) =
        .error (.unreadable ⟨Path.parse (letters 256), .nameTooLong⟩) ∧
      run .blank [letters 256] = .error (.pathTooLong ⟨Path.parse (letters 256)⟩) := by
  have hnul : '\x00' ∉ (letters 256).toList := not_mem_letters (by decide)
  have hdash : (letters 256).toList.head? ≠ some '-' :=
    head?_ne_of_not_mem (not_mem_letters (by decide))
  have hparse : Path.parse (letters 256) = ⟨.here, [letters 256]⟩ := by
    have hname : Path.isName (letters 256).toList ∧ '/' ∉ (letters 256).toList :=
      ⟨isName_letters (by decide), not_mem_letters (by decide)⟩
    have h := Path.parse_intercalate (List.cons_ne_nil (letters 256) []) (by simpa using hname)
    rwa [String.intercalate_singleton] at h
  have hdots : letters 256 ≠ ".." := by
    intro h
    have hsize := utf8ByteSize_letters 256
    rw [h] at hsize
    exact absurd hsize (by decide)
  have hresolve : FileSystem.blank.resolve (Path.parse (letters 256)) = .error .nameTooLong := by
    rw [hparse]
    exact resolve_blank_of_nameTooLong hnul hdots (by rw [utf8ByteSize_letters]; decide)
  obtain ⟨hrun, hload⟩ := run_of_nameTooLong hdash hresolve
  exact ⟨hdash, hnul, hload, hrun⟩

end TemplateLint.CommandLine.LintCommand
