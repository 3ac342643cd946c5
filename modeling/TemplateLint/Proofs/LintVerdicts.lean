import TemplateLint.CommandLine.LintCommand
import TemplateLint.Proofs.Buckets
import TemplateLint.Proofs.Encoding
import TemplateLint.Proofs.FileTrees
import TemplateLint.Proofs.Findings

/-!
# Verdicts of the lint command

An argument of the lint command stands for templates, and each template is judged by itself.
`templates` and `verdict` are what the two steps come to when neither breaks off: `templatesAt`
fails exactly if a path it has to ask about is refused for its length (`templatesAt_eq_ok_iff`), and
`judge` only if a path holds a NUL (`judge_eq_ok`). `Reports` says what an outcome has to be, given
which templates can be loaded and what their reports are; the outcome of verdicts is one
(`reports_outcome`).

The command keeps a status and texts and changes them template by template. What one template does
to them is `record_outcome`, and what any number of them does is `foldl_record`: the status comes to
the highest that one of them calls for, and the texts to all that is written about them. The status
is never above `2`, which is why setting it to `2` and raising it to `2` are the same.
-/

namespace TemplateLint.CommandLine.LintCommand

open TemplateLint.Files TemplateLint.Text

variable {fs : FileSystem} {root path : Path} {settings : LintSettings} {options : Options}

/-! ### The templates of an argument -/

/-- The templates that a path stands for: those below it if it is a directory, else itself. -/
def templates (fs : FileSystem) (root : Path) : List Path :=
  match fs.resolve root with
  | .ok (.directory entries) => templatesBelow root entries
  | _ => [root]

theorem listingAt_eq (fs : FileSystem) (root : Path) :
    listingAt fs root =
      match fs.resolve root with
      | .ok (.directory _) => listTemplates fs root
      | .error .nameTooLong => { paths := [], obstacle := some ⟨root⟩ }
      | _ => { paths := [root] } := by
  rw [listingAt, FileSystem.isDirectory, FileSystem.find?]
  rcases fs.resolve root with (_ | _ | _ | _) | (_ | _) <;> rfl

theorem templatesAt_eq (fs : FileSystem) (root : Path) :
    templatesAt fs root =
      match fs.resolve root with
      | .ok (.directory _) => templatePaths fs root
      | .error .nameTooLong => .error ⟨root⟩
      | _ => .ok [root] := by
  rw [templatesAt, listingAt_eq]
  rcases fs.resolve root with (_ | _ | _ | _) | (_ | _) <;> rfl

/-- The templates of a path can be listed exactly if neither the path nor one below it is refused
for its length. -/
theorem templatesAt_eq_ok_iff (hfs : fs.Proper) {paths : List Path} :
    templatesAt fs root = .ok paths ↔
      (∀ path, fs.Covers root path → fs.resolve path ≠ .error .nameTooLong) ∧
        templates fs root = paths := by
  rw [templatesAt_eq]
  split
  · next entries hroot =>
    rw [templatePaths_eq_ok_iff hroot]
    have htemplates : templates fs root = templatesBelow root entries := by
      simp only [templates, hroot]
    rw [htemplates]
    refine and_congr_left fun _ => ⟨?_, ?_⟩
    · rintro hshort path (rfl | ⟨node, names, target, hnode, hbelow, rfl⟩)
      · simp [hroot]
      · obtain rfl := Except.ok.inj (hroot.symm.trans hnode)
        rw [hfs.resolve_join hroot hbelow, hshort names target hbelow]
        simp
    · intro hcovers names target hbelow
      have hne := hcovers _ (.inr ⟨_, names, target, hroot, hbelow, rfl⟩)
      rw [hfs.resolve_join hroot hbelow] at hne
      simpa using hne
  · next hroot =>
    refine ⟨nofun, fun h => ?_⟩
    exact absurd hroot (h.1 root (.inl rfl))
  · next hdirectory hlong =>
    have htemplates : templates fs root = [root] := by
      simp only [templates]
    have hcovers : ∀ path, fs.Covers root path → fs.resolve path ≠ .error .nameTooLong := by
      intro path hpath
      rw [hpath.eq_root hdirectory]
      exact hlong
    rw [htemplates, and_iff_right hcovers, Except.ok.injEq]

/-- What cannot be listed is refused for the length of a path that the argument covers. -/
theorem covers_of_templatesAt_eq_error (hfs : fs.Proper) {error : PathTooLong}
    (h : templatesAt fs root = .error error) :
    fs.Covers root error.path ∧ fs.resolve error.path = .error .nameTooLong := by
  rw [templatesAt_eq] at h
  split at h
  · next entries hroot =>
    obtain ⟨names, target, hbelow, heq, hlong⟩ :=
      exists_below_of_obstacle (obstacle_of_templatePaths_eq_error hroot h)
    refine ⟨.inr ⟨_, names, target, hroot, hbelow, heq⟩, ?_⟩
    rw [heq, hfs.resolve_join hroot hbelow, if_pos hlong]
  · next hroot =>
    cases h
    exact ⟨.inl rfl, hroot⟩
  · cases h

theorem templates_of_ne_directory
    (hroot : ∀ entries, fs.resolve root ≠ .ok (.directory entries)) :
    templates fs root = [root] := by
  rw [templates]
  split
  · next entries h => exact absurd h (hroot entries)
  · rfl

/-- What is listed of an argument before something is too long is the beginning of its templates. -/
theorem paths_listingAt_isPrefix (fs : FileSystem) (root : Path) :
    (listingAt fs root).paths <+: templates fs root := by
  rw [listingAt_eq]
  split
  · next entries hroot =>
    simp only [templates, listTemplates_directory hroot, hroot]
    exact paths_listBelow_isPrefix
  · exact List.nil_prefix
  · next hdirectory _ => simp [templates_of_ne_directory hdirectory]

/-- The list of an argument is ended by nothing exactly if the argument can be asked about, and then
it is whole. -/
theorem obstacle_listingAt_eq_none_iff (hfs : fs.Proper) :
    (listingAt fs root).obstacle = none ↔
      ∀ path, fs.Covers root path → fs.resolve path ≠ .error .nameTooLong := by
  have h : templatesAt fs root = .ok (listingAt fs root).paths ↔ _ := templatesAt_eq_ok_iff hfs
  rw [templatesAt, Listing.complete_eq_ok_iff, and_iff_left rfl] at h
  refine ⟨fun hnone => (h.mp hnone).1, fun hcovers => ?_⟩
  have hwhole := (templatesAt_eq_ok_iff hfs).mpr ⟨hcovers, rfl⟩
  exact (Listing.complete_eq_ok_iff.mp hwhole).1

/-- A template of an argument is the argument itself, or a file below it. -/
private theorem eq_or_below_of_mem_templates (hpath : path ∈ templates fs root) :
    ((∀ entries, fs.resolve root ≠ .ok (.directory entries)) ∧ path = root) ∨
      ∃ entries names bytes, fs.resolve root = .ok (.directory entries) ∧
        (Node.directory entries).Below names (.file bytes) ∧ path = root.join names := by
  by_cases hdirectory : ∃ entries, fs.resolve root = .ok (.directory entries)
  · obtain ⟨entries, hentries⟩ := hdirectory
    simp only [templates, hentries] at hpath
    obtain ⟨names, bytes, hbelow, heq⟩ := exists_below_of_mem_templatesBelow hpath
    exact .inr ⟨entries, names, bytes, hentries, hbelow, heq⟩
  · rw [not_exists] at hdirectory
    rw [templates_of_ne_directory hdirectory, List.mem_singleton] at hpath
    exact .inl ⟨hdirectory, hpath⟩

/-- No template of an argument is refused for a NUL if the argument holds none. -/
private theorem resolve_ne_embeddedNul_of_mem_templates (hfs : fs.Proper)
    (hnul : ∀ name ∈ root.names, '\x00' ∉ name.toList) (hpath : path ∈ templates fs root) :
    fs.resolve path ≠ .error .embeddedNul := by
  obtain ⟨-, rfl⟩ | ⟨entries, names, bytes, hentries, hbelow, rfl⟩ :=
    eq_or_below_of_mem_templates hpath
  · exact FileSystem.resolve_ne_embeddedNul hnul
  · rw [hfs.resolve_join hentries hbelow]
    split <;> simp

/-- A template that was listed stands for itself, and can be asked about. -/
theorem answers_of_mem_templates (hfs : fs.Proper) (hroot : fs.Answers root)
    (hpath : path ∈ templates fs root) : fs.Answers path ∧ templates fs path = [path] := by
  obtain ⟨hdirectory, rfl⟩ | ⟨entries, names, bytes, hentries, hbelow, rfl⟩ :=
    eq_or_below_of_mem_templates hpath
  · exact ⟨hroot, templates_of_ne_directory hdirectory⟩
  · have hfile : fs.resolve (root.join names) = .ok (.file bytes) := by
      have hcovers := hroot.covers _ (.inr ⟨_, names, _, hentries, hbelow, rfl⟩)
      rw [hfs.resolve_join hentries hbelow] at hcovers ⊢
      split at hcovers
      · exact absurd rfl hcovers
      · next hshort => rw [if_neg hshort]
    have hdirectory : ∀ entries, fs.resolve (root.join names) ≠ .ok (.directory entries) := by
      simp [hfile]
    refine ⟨⟨(FileSystem.resolve_eq_ok_iff.mp hfile).1, fun path hpath => ?_⟩,
      templates_of_ne_directory hdirectory⟩
    rw [hpath.eq_root hdirectory, hfile]
    simp

/-! ### The verdict on a template -/

/-- The exit status that a template calls for by itself. -/
def Verdict.status : Verdict → Nat
  | .unreadable _ => 2
  | .judged _ run => if hasErrors run.report.diagnostics then 1 else 0

theorem Verdict.status_le_two (verdict : Verdict) : verdict.status ≤ 2 := by
  cases verdict with
  | unreadable => exact Nat.le_refl 2
  | judged path run =>
    rw [status]
    split <;> omega

/-- A template makes the status what it calls for, or leaves it if it was higher. -/
theorem Verdict.statusAfter_eq_max (verdict : Verdict) {status : Nat} (h : status ≤ 2) :
    verdict.statusAfter status = max status verdict.status := by
  cases verdict with
  | unreadable => exact (Nat.max_eq_right h).symm
  | judged path run =>
    rw [statusAfter, Verdict.status]
    cases hasErrors run.report.diagnostics with
    | false => exact (Nat.max_eq_left (Nat.zero_le status)).symm
    | true =>
      rcases status with _ | status
      · rfl
      · exact (Nat.max_eq_left (Nat.le_add_left 1 status)).symm

theorem loadTemplate_cases (h : fs.resolve path ≠ .error .embeddedNul) :
    (∃ source, loadTemplate fs path = .ok source) ∨
      ∃ fault, loadTemplate fs path = .error (.unreadable ⟨path, fault⟩) := by
  unfold loadTemplate
  split
  · next bytes _ => cases decodeTemplate bytes <;> simp [Except.mapError]
  · exact .inr ⟨_, rfl⟩
  · contradiction
  · exact .inr ⟨_, rfl⟩
  · exact .inr ⟨_, rfl⟩
  · exact .inr ⟨_, rfl⟩

/-- What the output says about a template. -/
def shown (fs : FileSystem) (settings : LintSettings) (options : Options) (path : Path) : String :=
  match loadTemplate fs path with
  | .error _ => ""
  | .ok source =>
    match settings.format with
    | .json => (options.report source).renderJson (some path.display) ++ "\n"
    | .text => (options.report source).renderText (some path.display) settings.hints ++ "\n"

/-- What the errors say about a template. -/
def complaint (fs : FileSystem) (path : Path) : String :=
  match loadTemplate fs path with
  | .error (.unreadable error) =>
    "Error: " ++ ("Cannot read template " ++ path.display ++ ": " ++ error.fault.message) ++ "\n"
  | _ => ""

/-- What becomes of a template. -/
def verdict (fs : FileSystem) (options : Options) (path : Path) : Verdict :=
  match loadTemplate fs path with
  | .error (.unreadable error) => .unreadable error
  -- a command that comes here breaks off, so any verdict will do
  | .error .embeddedNul => .unreadable ⟨path, .notFound⟩
  | .ok source =>
    .judged path ⟨source, Kind.inRunOrder.map (Kind.run options source), options.report source⟩

theorem judge_eq_ok (h : fs.resolve path ≠ .error .embeddedNul) :
    judge fs options path = .ok (verdict fs options path) := by
  rw [judge, verdict]
  obtain ⟨source, hsource⟩ | ⟨fault, hfault⟩ := loadTemplate_cases h
  · simp only [hsource, lint_eq_ok]
    rfl
  · simp only [hfault]

private theorem output_verdict (fs : FileSystem) (settings : LintSettings) (options : Options)
    (path : Path) : (verdict fs options path).output settings = shown fs settings options path := by
  rw [verdict, shown]
  rcases loadTemplate fs path with (_ | _) | _ <;> rfl

private theorem errors_verdict (h : fs.resolve path ≠ .error .embeddedNul)
    (hverbose : settings.verbose = false) :
    (verdict fs options path).errors settings = complaint fs path := by
  rw [verdict, complaint]
  obtain ⟨source, hsource⟩ | ⟨fault, hfault⟩ := loadTemplate_cases h
  · simp [hsource, Verdict.errors, hverbose]
  · rw [hfault]
    rfl

private theorem status_verdict_le_one_iff :
    (verdict fs options path).status ≤ 1 ↔ ∃ source, loadTemplate fs path = .ok source := by
  rw [verdict]
  rcases loadTemplate fs path with (_ | _) | source
  · simp [Verdict.status]
  · simp [Verdict.status]
  · simp only [Verdict.status, Except.ok.injEq, exists_eq', iff_true]
    split <;> omega

private theorem status_verdict_le_zero_iff :
    (verdict fs options path).status ≤ 0 ↔
      ∃ source, loadTemplate fs path = .ok source ∧ (options.report source).errors = [] := by
  rw [verdict]
  rcases loadTemplate fs path with (_ | _) | source
  · simp [Verdict.status]
  · simp [Verdict.status]
  · have hreport := Report.hasErrors_diagnostics (ofDiagnostics_findings options source)
    simp [Verdict.status, hreport, ← Report.isValid_iff]

/-! ### The outcome of a run -/

/-- The outcome of verdicts: the highest status that one of them calls for, and everything written
in order. -/
def outcome (settings : LintSettings) (verdicts : List Verdict) : Outcome where
  status := (verdicts.map Verdict.status).foldl max 0
  output := String.join (verdicts.map (Verdict.output settings))
  errors := String.join (verdicts.map (Verdict.errors settings))

private theorem foldl_max_le_iff {statuses : List Nat} {first bound : Nat} :
    statuses.foldl max first ≤ bound ↔ first ≤ bound ∧ ∀ status ∈ statuses, status ≤ bound := by
  induction statuses generalizing first with
  | nil => simp
  | cons status statuses ih =>
    rw [List.foldl_cons, ih, Nat.max_le, List.forall_mem_cons, and_assoc]

theorem status_outcome_le_two (settings : LintSettings) (verdicts : List Verdict) :
    (outcome settings verdicts).status ≤ 2 := by
  refine foldl_max_le_iff.mpr ⟨Nat.zero_le 2, List.forall_mem_map.mpr fun verdict _ => ?_⟩
  exact verdict.status_le_two

/-- **One template more** raises the status to what it calls for, if that is more than there was,
and adds its texts at the end. -/
theorem record_outcome (settings : LintSettings) (verdicts : List Verdict) (verdict : Verdict) :
    record settings (outcome settings verdicts) verdict =
      outcome settings (verdicts ++ [verdict]) := by
  rw [record, verdict.statusAfter_eq_max (status_outcome_le_two settings verdicts)]
  simp [outcome]

/-- **Any number of templates**: step by step the status comes to the highest that one of them calls
for, and the texts to everything written in order. -/
theorem foldl_record (settings : LintSettings) (before verdicts : List Verdict) :
    verdicts.foldl (record settings) (outcome settings before) =
      outcome settings (before ++ verdicts) := by
  induction verdicts generalizing before with
  | nil => rw [List.foldl_nil, List.append_nil]
  | cons verdict verdicts ih =>
    rw [List.foldl_cons, record_outcome, ih, List.append_assoc, List.singleton_append]

theorem status_outcome_le_iff {paths : List Path} {bound : Nat} :
    (outcome settings (paths.map (verdict fs options))).status ≤ bound ↔
      ∀ path ∈ paths, (verdict fs options path).status ≤ bound := by
  simp only [outcome, foldl_max_le_iff, Nat.zero_le, true_and, List.forall_mem_map]

/-- What a run over some templates comes to: the status is the worst that happened, and the
templates are written about one after the other. -/
structure Reports (fs : FileSystem) (settings : LintSettings) (options : Options)
    (paths : List Path) (outcome : Outcome) : Prop where
  status_le : outcome.status ≤ 2
  status_eq_two_iff : outcome.status = 2 ↔
    ∃ path ∈ paths, ∃ failure, loadTemplate fs path = .error failure
  status_eq_one_iff : outcome.status = 1 ↔
    (∀ path ∈ paths, ∃ source, loadTemplate fs path = .ok source) ∧
      ∃ path ∈ paths, ∃ source, loadTemplate fs path = .ok source ∧
        (options.report source).errors ≠ []
  output_eq : outcome.output = String.join (paths.map (shown fs settings options))
  errors_eq : outcome.errors = String.join (paths.map (complaint fs))

theorem reports_outcome {paths : List Path}
    (hpaths : ∀ path ∈ paths, fs.resolve path ≠ .error .embeddedNul)
    (hverbose : settings.verbose = false) :
    Reports fs settings options paths (outcome settings (paths.map (verdict fs options))) := by
  have htwo : (outcome settings (paths.map (verdict fs options))).status ≤ 2 :=
    status_outcome_le_two settings _
  have hone : (outcome settings (paths.map (verdict fs options))).status ≤ 1 ↔
      ∀ path ∈ paths, ∃ source, loadTemplate fs path = .ok source := by
    simp only [status_outcome_le_iff, status_verdict_le_one_iff]
  have hzero : (outcome settings (paths.map (verdict fs options))).status ≤ 0 ↔
      ∀ path ∈ paths, ∃ source, loadTemplate fs path = .ok source ∧
        (options.report source).errors = [] := by
    simp only [status_outcome_le_iff, status_verdict_le_zero_iff]
  generalize hresult : outcome settings (paths.map (verdict fs options)) = result
    at htwo hone hzero ⊢
  have hfailed : result.status = 2 ↔ ¬ result.status ≤ 1 := by omega
  have hfaulty : result.status = 1 ↔ result.status ≤ 1 ∧ ¬ result.status ≤ 0 := by omega
  refine ⟨htwo, ?_, ?_, ?_, ?_⟩
  · rw [hfailed, hone]
    simp only [not_forall, exists_prop, not_exists_eq_ok_iff]
  · rw [hfaulty, hone, hzero]
    refine and_congr_right fun hread => ?_
    simp only [not_forall, exists_prop]
    refine exists_congr fun path => and_congr_right fun hpath => ?_
    obtain ⟨source, hsource⟩ := hread path hpath
    simp [hsource]
  · rw [← hresult]
    simp only [outcome, List.map_map, Function.comp_def, output_verdict]
  · rw [← hresult]
    simp only [outcome, List.map_map]
    congr 1
    exact List.map_congr_left fun path hpath => errors_verdict (hpaths path hpath) hverbose

/-- The status depends on which templates there are, not on their order or number. -/
theorem Reports.status_congr {others : LintSettings} {paths more : List Path}
    {first second : Outcome} (hfirst : Reports fs settings options paths first)
    (hsecond : Reports fs others options more second)
    (hmem : ∀ path, path ∈ paths ↔ path ∈ more) : first.status = second.status := by
  have htwo : first.status = 2 ↔ second.status = 2 := by
    simp only [hfirst.status_eq_two_iff, hsecond.status_eq_two_iff, hmem]
  have hone : first.status = 1 ↔ second.status = 1 := by
    simp only [hfirst.status_eq_one_iff, hsecond.status_eq_one_iff, hmem]
  have := hfirst.status_le
  have := hsecond.status_le
  omega

/-! ### The course of a run -/

/-- An argument is worked off as far as it can be listed, and each template is written about. -/
theorem lintArgument_eq (hfs : fs.Proper) (hnul : ∀ name ∈ root.names, '\x00' ∉ name.toList)
    (sofar : Outcome) :
    lintArgument fs settings options root sofar =
      { outcome :=
          ((listingAt fs root).paths.map (verdict fs options)).foldl (record settings) sofar
        breakdown := (listingAt fs root).obstacle.map .pathTooLong } := by
  have hstep : ∀ path ∈ (listingAt fs root).paths, ∀ outcome,
      lintTemplate fs settings options path outcome =
        ⟨record settings outcome (verdict fs options path), none⟩ := by
    intro path hpath outcome
    have hmem := (paths_listingAt_isPrefix fs root).subset hpath
    rw [lintTemplate, judge_eq_ok (resolve_ne_embeddedNul_of_mem_templates hfs hnul hmem)]
  rw [lintArgument, Course.inTurn_eq hstep, List.foldl_map]
  rfl

/-- **Arguments that can be asked about** are worked off one after the other. -/
theorem inTurn_lintArgument_eq (hfs : fs.Proper) {roots : List Path}
    (hroots : ∀ root ∈ roots, fs.Answers root) (verdicts : List Verdict) :
    Course.inTurn (lintArgument fs settings options) roots (outcome settings verdicts) =
      { outcome := outcome settings
          (verdicts ++ (roots.flatMap (templates fs)).map (verdict fs options)) } := by
  have hstep : ∀ root ∈ roots, ∀ sofar, lintArgument fs settings options root sofar =
      ⟨((templates fs root).map (verdict fs options)).foldl (record settings) sofar, none⟩ := by
    intro root hroot sofar
    have hanswers := hroots root hroot
    have hlisted := (templatesAt_eq_ok_iff hfs).mpr ⟨hanswers.covers, rfl⟩
    obtain ⟨hnone, hpaths⟩ := Listing.complete_eq_ok_iff.mp hlisted
    rw [lintArgument_eq hfs hanswers.nul, hnone, hpaths]
    rfl
  rw [Course.inTurn_eq hstep, ← foldl_record, List.map_flatMap, List.foldl_flatMap]

end TemplateLint.CommandLine.LintCommand
