import TemplateLint.Diagnostic.Spec

/-!
# Reports

A `Report` holds the findings of one run in three buckets, one for each severity, each in the
order in which the findings were made. A template is valid when there are no errors.

Findings are put into their buckets in one walk, which ends at a finding whose severity is none of
the three; `Report.ofDiagnostics_eq` says what the walk comes to.
-/

namespace TemplateLint

/-- The findings of one run by severity. -/
structure Report where
  errors : List Diagnostic := []
  warnings : List Diagnostic := []
  suggestions : List Diagnostic := []
  deriving DecidableEq

/-- A finding whose severity is none of the three. -/
structure InvalidSeverity where
  /-- The code of the finding. -/
  code : String
  /-- The label it has for its severity. -/
  severity : String
  deriving DecidableEq

/-- The wording for a severity that is none. -/
def InvalidSeverity.message (invalid : InvalidSeverity) : String :=
  "Diagnostic `" ++ invalid.code ++ "` has invalid severity `" ++ invalid.severity ++
    "`; expected error/warning/suggestion."

/-- Whether a finding has a severity. -/
def Diagnostic.hasSeverity (severity : Severity) (d : Diagnostic) : Bool :=
  d.severity == severity.label

/-- Whether some finding is an error. -/
def hasErrors (findings : List Diagnostic) : Bool :=
  findings.any (Diagnostic.hasSeverity .error)

namespace Report

/-- Whether there are no errors. -/
def isValid (report : Report) : Bool :=
  report.errors.isEmpty

/-- All findings: errors, then warnings, then suggestions. -/
def diagnostics (report : Report) : List Diagnostic :=
  report.errors ++ report.warnings ++ report.suggestions

/-- The report with one more finding, which goes to the end of the bucket of its severity. -/
def add (report : Report) (d : Diagnostic) : Except InvalidSeverity Report :=
  match Severity.ofLabel? d.severity with
  | none => .error ⟨d.code, d.severity⟩
  | some .error => .ok { report with errors := report.errors ++ [d] }
  | some .warning => .ok { report with warnings := report.warnings ++ [d] }
  | some .suggestion => .ok { report with suggestions := report.suggestions ++ [d] }

/-- The report of findings in the order in which they were made. -/
def ofDiagnostics (findings : List Diagnostic) : Except InvalidSeverity Report :=
  findings.foldlM add {}

/-- The bucket of a severity. -/
def bucket (report : Report) : Severity → List Diagnostic
  | .error => report.errors
  | .warning => report.warnings
  | .suggestion => report.suggestions

theorem isValid_iff {report : Report} : report.isValid ↔ report.errors = [] := by
  simp [isValid]

/-! ### The buckets by severity -/

/-- The first finding whose severity is none of the three. -/
def firstInvalid? (findings : List Diagnostic) : Option Diagnostic :=
  findings.find? fun d => (Severity.ofLabel? d.severity).isNone

/-- The report with the findings of each severity at the end of its bucket. -/
def extend (report : Report) (findings : List Diagnostic) : Report where
  errors := report.errors ++ findings.filter (Diagnostic.hasSeverity .error)
  warnings := report.warnings ++ findings.filter (Diagnostic.hasSeverity .warning)
  suggestions := report.suggestions ++ findings.filter (Diagnostic.hasSeverity .suggestion)

@[simp] theorem extend_nil (report : Report) : report.extend [] = report := by
  simp [extend]

theorem extend_extend (report : Report) (first second : List Diagnostic) :
    (report.extend first).extend second = report.extend (first ++ second) := by
  simp [extend]

/-- **One finding**: it is refused if its severity is none, else it goes into one bucket. -/
theorem add_eq (report : Report) (d : Diagnostic) :
    report.add d =
      if (Severity.ofLabel? d.severity).isNone then .error ⟨d.code, d.severity⟩
      else .ok (report.extend [d]) := by
  rw [add]
  cases hseverity : Severity.ofLabel? d.severity with
  | none => rfl
  | some own =>
    have hlabel : d.severity = own.label := (Severity.label_of_ofLabel? hseverity).symm
    cases own <;> simp [extend, Diagnostic.hasSeverity, hlabel, Severity.label]

/-- **Any number of findings**: the first that is refused ends the walk, and else every bucket has
got the findings of its severity. -/
theorem foldlM_add (findings : List Diagnostic) (report : Report) :
    findings.foldlM add report =
      match firstInvalid? findings with
      | some d => .error ⟨d.code, d.severity⟩
      | none => .ok (report.extend findings) := by
  induction findings generalizing report with
  | nil => simp [firstInvalid?, pure, Except.pure]
  | cons d findings ih =>
    rw [List.foldlM_cons, add_eq, firstInvalid?, List.find?_cons]
    cases hnone : (Severity.ofLabel? d.severity).isNone with
    | true => rfl
    | false =>
      -- what is in the buckets by now is carried on
      simp only [Bool.false_eq_true, if_false, bind, Except.bind]
      rw [ih, extend_extend, List.singleton_append, firstInvalid?]

/-- The walk comes to the parts of the list that have one severity each. -/
theorem ofDiagnostics_eq (findings : List Diagnostic) :
    ofDiagnostics findings =
      match firstInvalid? findings with
      | some d => .error ⟨d.code, d.severity⟩
      | none =>
        .ok
          { errors := findings.filter (Diagnostic.hasSeverity .error)
            warnings := findings.filter (Diagnostic.hasSeverity .warning)
            suggestions := findings.filter (Diagnostic.hasSeverity .suggestion) } :=
  foldlM_add findings {}

/-- A bucket holds the findings of its severity in the order in which they were made. -/
theorem bucket_of_ofDiagnostics {findings : List Diagnostic} {report : Report}
    (h : ofDiagnostics findings = .ok report) (severity : Severity) :
    report.bucket severity = findings.filter (Diagnostic.hasSeverity severity) := by
  rw [ofDiagnostics_eq] at h
  split at h
  · simp at h
  · cases h
    cases severity <;> rfl

end Report

end TemplateLint
