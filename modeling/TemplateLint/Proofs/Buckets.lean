import Mathlib.Data.List.Perm.Basic
import TemplateLint.Proofs.Failures
import TemplateLint.Report.Basic

/-!
# Sorting findings into buckets

Findings come in the order in which the rules made them, and rules from outside may give them any
severity. `Report.ofDiagnostics_eq_ok_iff` says when they make a report and which one: each of them
must have a known severity, and then each bucket is the part of the list that has its severity. All
else about sorting follows from this one equivalence.

* Nothing is lost or made up (`Report.perm_diagnostics`): a known severity is exactly one.
* The findings of a report make the same report again (`Report.ofDiagnostics_diagnostics`).
* Whether there is an error can be asked of the findings, of the findings of the report, or of the
  bucket (`Report.hasErrors_eq`, `Report.hasErrors_diagnostics`).

`Report.ofDiagnostics_sorts` puts them together with the complaint about the first finding whose
severity is none.
-/

namespace TemplateLint

/-! ### Known severities -/

theorem Severity.isSome_ofLabel?_iff {text : String} :
    (ofLabel? text).isSome ↔ text ∈ ["error", "warning", "suggestion"] := by
  rw [ofLabel?, List.find?_isSome]
  simp [all, label, @eq_comm _ text]

theorem Diagnostic.hasSeverity_iff {d : Diagnostic} {severity : Severity} :
    d.hasSeverity severity ↔ Severity.ofLabel? d.severity = some severity := by
  rw [hasSeverity, beq_iff_eq]
  constructor
  · intro h
    rw [h, Severity.ofLabel?_label]
  · intro h
    exact (Severity.label_of_ofLabel? h).symm

namespace Report

variable {findings : List Diagnostic} {report : Report}

/-! ### When findings make a report -/

theorem firstInvalid?_eq_none_iff :
    firstInvalid? findings = none ↔ ∀ d ∈ findings, (Severity.ofLabel? d.severity).isSome := by
  simp [firstInvalid?, Option.isSome_iff_ne_none]

/-- **Findings make a report exactly if each of them has a known severity**, and then each bucket
holds the findings of its severity in the order in which they were made. -/
theorem ofDiagnostics_eq_ok_iff :
    ofDiagnostics findings = .ok report ↔
      (∀ d ∈ findings, (Severity.ofLabel? d.severity).isSome) ∧
        ∀ severity, report.bucket severity =
          findings.filter (Diagnostic.hasSeverity severity) := by
  constructor
  · intro h
    refine ⟨firstInvalid?_eq_none_iff.mp ?_, bucket_of_ofDiagnostics h⟩
    rw [ofDiagnostics_eq] at h
    split at h
    · cases h
    · next hnone => exact hnone
  · rintro ⟨hknown, hbucket⟩
    rw [ofDiagnostics_eq, firstInvalid?_eq_none_iff.mpr hknown]
    simp only [← hbucket]
    rfl

theorem exists_ofDiagnostics_iff :
    (∃ report, ofDiagnostics findings = .ok report) ↔
      ∀ d ∈ findings, (Severity.ofLabel? d.severity).isSome := by
  rw [← firstInvalid?_eq_none_iff, ofDiagnostics_eq]
  cases firstInvalid? findings <;> simp

/-- What is refused is the first finding whose severity is none of the three. -/
private theorem exists_of_ofDiagnostics_eq_error {invalid : InvalidSeverity}
    (h : ofDiagnostics findings = .error invalid) :
    ∃ before d later, findings = before ++ d :: later ∧
      (∀ earlier ∈ before, (Severity.ofLabel? earlier.severity).isSome) ∧
      ¬ (Severity.ofLabel? d.severity).isSome ∧ invalid = ⟨d.code, d.severity⟩ := by
  rw [ofDiagnostics_eq] at h
  split at h
  · next d hfirst =>
    cases h
    obtain ⟨hnone, before, later, heq, hbefore⟩ := List.find?_eq_some_iff_append.mp hfirst
    refine ⟨before, d, later, heq, fun earlier hearlier => ?_, ?_, rfl⟩
    · simpa using hbefore earlier hearlier
    · simpa using hnone
  · cases h

/-! ### What a report holds -/

theorem diagnostics_eq_flatMap (report : Report) :
    report.diagnostics = Severity.all.flatMap report.bucket := by
  simp [diagnostics, Severity.all, bucket]

/-- A finding goes into one bucket, so that the buckets together hold what there was. -/
private theorem perm_filters (h : ∀ d ∈ findings, (Severity.ofLabel? d.severity).isSome) :
    (Severity.all.flatMap fun severity =>
      findings.filter (Diagnostic.hasSeverity severity)).Perm findings := by
  induction findings with
  | nil => simp
  | cons d later ih =>
    obtain ⟨hd, hlater⟩ := List.forall_mem_cons.mp h
    obtain ⟨own, hown⟩ := Option.isSome_iff_exists.mp hd
    have hbuckets (severity : Severity) :
        (d :: later).filter (Diagnostic.hasSeverity severity) =
          (if severity = own then [d] else []) ++
            later.filter (Diagnostic.hasSeverity severity) := by
      have htest : d.hasSeverity severity ↔ severity = own := by
        rw [Diagnostic.hasSeverity_iff, hown, Option.some.injEq, eq_comm]
      by_cases hsame : severity = own
      · rw [List.filter_cons_of_pos (htest.mpr hsame), if_pos hsame, List.singleton_append]
      · rw [List.filter_cons_of_neg (mt htest.mp hsame), if_neg hsame, List.nil_append]
    refine List.Perm.trans ?_ ((ih hlater).cons d)
    simp only [hbuckets, Severity.all, List.flatMap_cons, List.flatMap_nil]
    -- in which place the finding stands depends on its severity alone
    cases own with
    | error => simp
    | warning => simp
    | suggestion =>
      simp only [reduceCtorEq, if_false, if_true, List.nil_append, List.append_nil,
        List.singleton_append, ← List.append_assoc]
      exact List.perm_middle

theorem perm_diagnostics (h : ofDiagnostics findings = .ok report) :
    report.diagnostics.Perm findings := by
  obtain ⟨hknown, hbucket⟩ := ofDiagnostics_eq_ok_iff.mp h
  rw [diagnostics_eq_flatMap, funext hbucket]
  exact perm_filters hknown

/-- The findings of a report that have a severity are those of its bucket. -/
theorem filter_diagnostics (h : ofDiagnostics findings = .ok report) (severity : Severity) :
    report.diagnostics.filter (Diagnostic.hasSeverity severity) = report.bucket severity := by
  have hbucket (other : Severity) :
      (report.bucket other).filter (Diagnostic.hasSeverity severity) =
        if severity = other then report.bucket severity else [] := by
    rw [bucket_of_ofDiagnostics h other]
    split
    · next hsame =>
      rw [← hsame, bucket_of_ofDiagnostics h, List.filter_filter]
      simp only [Bool.and_self]
    · next hother =>
      -- a finding has no two severities
      rw [List.filter_filter, List.filter_eq_nil_iff]
      intro d _ hboth
      rw [Bool.and_eq_true] at hboth
      obtain ⟨hd, hd'⟩ := hboth
      exact hother (Option.some.inj
        ((Diagnostic.hasSeverity_iff.mp hd).symm.trans (Diagnostic.hasSeverity_iff.mp hd')))
  rw [diagnostics_eq_flatMap, List.filter_flatMap]
  simp only [hbucket]
  cases severity <;> simp [Severity.all]

/-- The findings of a report make the same report again. -/
theorem ofDiagnostics_diagnostics (h : ofDiagnostics findings = .ok report) :
    ofDiagnostics report.diagnostics = .ok report := by
  obtain ⟨hknown, -⟩ := ofDiagnostics_eq_ok_iff.mp h
  refine ofDiagnostics_eq_ok_iff.mpr ⟨fun d hd => ?_, fun severity => ?_⟩
  · exact hknown d ((perm_diagnostics h).mem_iff.mp hd)
  · exact (filter_diagnostics h severity).symm

/-! ### Errors -/

/-- There is an error among the findings exactly if their report is not valid. -/
theorem hasErrors_eq (h : ofDiagnostics findings = .ok report) :
    hasErrors findings = !report.isValid := by
  have herrors : report.errors = findings.filter (Diagnostic.hasSeverity .error) :=
    bucket_of_ofDiagnostics h .error
  rw [hasErrors, isValid, herrors, Bool.eq_iff_iff]
  simp [List.filter_eq_nil_iff]

/-- A report shows an error among its findings exactly if it is not valid. -/
theorem hasErrors_diagnostics (h : ofDiagnostics findings = .ok report) :
    hasErrors report.diagnostics = !report.isValid :=
  hasErrors_eq (ofDiagnostics_diagnostics h)

/-- **Findings are sorted, and nothing else.** They are refused exactly if one of them has a
severity that is none of the three, with a complaint that names the first such finding. Otherwise
the report holds the same findings; those of one severity stay in their order and make up its bucket; sorting
once more changes nothing; and all ways of asking for errors agree. -/
theorem ofDiagnostics_sorts (findings : List Diagnostic) :
    ((∃ invalid, ofDiagnostics findings = .error invalid) ↔
      ∃ d ∈ findings, d.severity ∉ ["error", "warning", "suggestion"]) ∧
    (∀ invalid, ofDiagnostics findings = .error invalid →
      ∃ before d later, findings = before ++ d :: later ∧
        (∀ earlier ∈ before, earlier.severity ∈ ["error", "warning", "suggestion"]) ∧
        d.severity ∉ ["error", "warning", "suggestion"] ∧
        invalid.message = "Diagnostic `" ++ d.code ++ "` has invalid severity `" ++ d.severity ++
          "`; expected error/warning/suggestion.") ∧
    ∀ report, ofDiagnostics findings = .ok report →
      report.diagnostics.Perm findings ∧
      (∀ severity : Severity, report.diagnostics.filter (·.severity = severity.label) =
        findings.filter (·.severity = severity.label)) ∧
      report.errors = findings.filter (·.severity = "error") ∧
      report.warnings = findings.filter (·.severity = "warning") ∧
      report.suggestions = findings.filter (·.severity = "suggestion") ∧
      ofDiagnostics report.diagnostics = .ok report ∧
      hasErrors findings = !report.isValid ∧
      hasErrors report.diagnostics = !report.isValid := by
  simp only [← Severity.isSome_ofLabel?_iff]
  refine ⟨?_, fun invalid h => ?_, fun report h => ?_⟩
  · rw [← not_exists_eq_ok_iff, exists_ofDiagnostics_iff]
    simp
  · obtain ⟨before, d, later, heq, hbefore, hd, rfl⟩ := exists_of_ofDiagnostics_eq_error h
    exact ⟨before, d, later, heq, hbefore, hd, rfl⟩
  · have horder (severity : Severity) :=
      (filter_diagnostics h severity).trans (bucket_of_ofDiagnostics h severity)
    exact ⟨perm_diagnostics h, horder, bucket_of_ofDiagnostics h .error,
      bucket_of_ofDiagnostics h .warning, bucket_of_ofDiagnostics h .suggestion,
      ofDiagnostics_diagnostics h, hasErrors_eq h, hasErrors_diagnostics h⟩

end Report

end TemplateLint
