import Mathlib.Data.List.Basic
import Mathlib.Data.List.Flatten
import TemplateLint.Proofs.Findings

/-!
# What reports hold, and how options change them

A run of the built-in rules always gives a report, and `Options.bucket_report` says what stands in
each of its buckets: code by code, in the order of the passes, the findings of the codes of that
severity. Three consequences, each for all templates and all options:

* `validate_bucket_lookup`: every finding is of the catalogue, in the bucket of its code, with the
  severity and the pass of its code.
* `validate_withDisabled`: switching codes off takes the findings of these codes out of the buckets
  and does nothing else. A rule is skipped by the code it declares, so this rests on every rule
  reporting under that code alone, and on no finding depending on what is switched off.
* `validate_relaxes`: options that ask for less find less. Wider windows, more guards, higher
  thresholds, fewer marker texts and more codes switched off all point the same way.
-/

namespace TemplateLint

open TemplateLint.Markup TemplateLint.Text

/-! ### Findings and the catalogue -/

namespace Kind

variable {options : Options} {source : List Char} {kind : Kind} {d : Diagnostic}

private theorem lookup_code (kind : Kind) : Catalogue.lookup kind.code = .ok kind.spec := by
  rw [Catalogue.lookup, find?_code]

theorem code_of_mem_findings (h : d ∈ kind.findings options source) : d.code = kind.code := by
  obtain ⟨spec, hspec, message, span, rfl⟩ := exists_describes_of_mem_findings h
  exact hspec.code_eq

private theorem category_of_mem_findings (h : d ∈ kind.findings options source) :
    d.category = some kind.spec.category := by
  obtain ⟨spec, hspec, message, span, rfl⟩ := exists_describes_of_mem_findings h
  exact congrArg some hspec.category_eq

/-- The catalogue has no code that is not among the kinds. -/
theorem ofCode?_isSome_of_find? {code : String} (h : (Catalogue.find? code).isSome) :
    (ofCode? code).isSome := by
  have hall : ∀ spec ∈ Catalogue.primarySpecs, (ofCode? spec.code).isSome := by
    decide +kernel
  obtain ⟨spec, hspec⟩ := Option.isSome_iff_exists.mp h
  have hmem := hall spec (List.mem_of_find?_eq_some hspec)
  rwa [Catalogue.code_of_find? hspec] at hmem

end Kind

/-- The loop tags that were found are in order, so that they make a span. -/
private theorem Markup.ofBounds_loopTags {source : List Char} {outer inner : Marker}
    {innerEnd outerEnd : Occurrence} (houter : nextLoopTag? source 0 = some outer)
    (hinner : nextLoopTag? source outer.stop = some inner)
    (hinnerEnd : nextLoopEnd? source inner.stop = some innerEnd)
    (houterEnd : nextLoopEnd? source innerEnd.stop = some outerEnd) :
    ∃ span, Span.ofBounds outer.start outerEnd.stop = .ok span ∧
      nestedLoop? source = some span := by
  cases hloop : nestedLoop? source with
  | none =>
    have hmissing := nestedLoop?_eq_none_iff.mp hloop outer inner innerEnd houter hinner hinnerEnd
    rw [hmissing] at houterEnd
    simp at houterEnd
  | some span =>
    -- each step of the search has one result
    obtain ⟨outer', inner', innerEnd', outerEnd', houter', hinner', hinnerEnd', houterEnd',
      hstart, hstop⟩ := nestedLoop?_eq_some_iff.mp hloop
    obtain rfl := Option.some.inj (houter.symm.trans houter')
    obtain rfl := Option.some.inj (hinner.symm.trans hinner')
    obtain rfl := Option.some.inj (hinnerEnd.symm.trans hinnerEnd')
    obtain rfl := Option.some.inj (houterEnd.symm.trans houterEnd')
    refine ⟨span, ?_, rfl⟩
    rw [← hstart, ← hstop, Span.ofBounds_natCast]

/-- **Every template gets a report**, whatever the options. Every finding in it has a code of the
catalogue, stands in the bucket of the severity of that code, and has the severity and the pass of
that code. Nor can the place of nested loops fail to be a span, which is the only one that is made
of the ends of different tags. -/
theorem validate_bucket_lookup (source : List Char) (options : Options) :
    (∃ report, validate source options = .ok report ∧
      ∀ severity, ∀ d ∈ report.bucket severity,
        ∃ spec, Catalogue.lookup d.code = .ok spec ∧ spec.severity = severity.label ∧
          d.severity = spec.severity ∧ d.category = some spec.category) ∧
      ∀ outer inner innerEnd outerEnd, nextLoopTag? source 0 = some outer →
        nextLoopTag? source outer.stop = some inner →
        nextLoopEnd? source inner.stop = some innerEnd →
        nextLoopEnd? source innerEnd.stop = some outerEnd →
        ∃ span, Span.ofBounds outer.start outerEnd.stop = .ok span ∧
          nestedLoop? source = some span := by
  refine ⟨⟨options.report source, validate_eq_ok source options, fun severity d hd => ?_⟩,
    fun outer inner innerEnd outerEnd => Markup.ofBounds_loopTags⟩
  rw [Options.bucket_report, List.mem_flatMap] at hd
  obtain ⟨kind, hkind, hd⟩ := hd
  have hseverity : kind.spec.severity = severity.label := by
    simpa using List.of_mem_filter hkind
  refine ⟨kind.spec, ?_, hseverity, Kind.severity_of_mem_findings hd,
    Kind.category_of_mem_findings hd⟩
  rw [Kind.code_of_mem_findings hd, Kind.lookup_code]

/-! ### Switching codes off -/

namespace Options

variable {codes : List String}

theorem mem_unknownCodes_iff {code : String} :
    code ∈ unknownCodes codes ↔ code ∈ codes ∧ Kind.ofCode? code = none := by
  simp [unknownCodes]

/-- Codes of the catalogue can be switched off. -/
theorem withDisabled_eq_ok (hcodes : ∀ code ∈ codes, (Catalogue.find? code).isSome)
    (options : Options) : options.withDisabled codes = .ok (options.without codes) := by
  have hunknown : unknownCodes codes = [] := by
    rw [List.eq_nil_iff_forall_not_mem]
    intro code hmem
    obtain ⟨hcode, hnone⟩ := mem_unknownCodes_iff.mp hmem
    simpa [hnone] using Kind.ofCode?_isSome_of_find? (hcodes code hcode)
  simp only [withDisabled, hunknown]
  rfl

theorem mem_disabled_without {options : Options} {kind : Kind} :
    kind ∈ (options.without codes).disabled ↔ kind ∈ options.disabled ∨ kind.code ∈ codes := by
  simp [without, Kind.mem_all]

private theorem enabledKinds_without (options : Options) :
    (options.without codes).enabledKinds = options.enabledKinds.filter (·.code ∉ codes) := by
  rw [enabledKinds, enabledKinds, List.filter_filter]
  refine List.filter_congr fun kind _ => ?_
  rw [Bool.eq_iff_iff]
  simp [mem_disabled_without, and_comm]

end Options

/-- What a rule finds does not depend on the codes that are switched off. -/
theorem Kind.findings_without (options : Options) (codes : List String) (source : List Char) :
    Kind.findings (options.without codes) source = Kind.findings options source := by
  funext kind
  cases kind <;> rfl

/-- Of the findings of a code, those under other codes than the given ones are all or none. -/
theorem Kind.filter_code_findings (options : Options) (source : List Char) (codes : List String)
    (kind : Kind) :
    (kind.findings options source).filter (·.code ∉ codes) =
      if kind.code ∉ codes then kind.findings options source else [] := by
  refine filter_eq_ite fun d hd => ?_
  rw [code_of_mem_findings hd, decide_eq_true_eq]

/-- Each bucket loses the findings of the codes that are switched off. -/
theorem Options.bucket_report_without (options : Options) (codes : List String)
    (source : List Char) (severity : Severity) :
    ((options.without codes).report source).bucket severity =
      ((options.report source).bucket severity).filter (·.code ∉ codes) := by
  let kinds := options.enabledKinds.filter (·.spec.severity = severity.label)
  calc ((options.without codes).report source).bucket severity
      = (kinds.filter (·.code ∉ codes)).flatMap (Kind.findings options source) := by
        rw [bucket_report, enabledKinds_without, List.filter_comm, Kind.findings_without]
    _ = kinds.flatMap fun kind => (kind.findings options source).filter (·.code ∉ codes) := by
        rw [flatMap_filter]
        simp only [Kind.filter_code_findings]
    _ = ((options.report source).bucket severity).filter (·.code ∉ codes) := by
        rw [← List.filter_flatMap, bucket_report]

/-- **Switching codes off is filtering**: with more codes of the catalogue switched off, each bucket
is what it was before without the findings of these codes, in the same order, and a template is
then valid exactly if all its errors were of these codes. -/
theorem validate_withDisabled (source : List Char) (options : Options) {codes : List String}
    (hcodes : ∀ code ∈ codes, (Catalogue.find? code).isSome) :
    ∃ narrowed report rest, options.withDisabled codes = .ok narrowed ∧
      validate source options = .ok report ∧ validate source narrowed = .ok rest ∧
      (∀ severity, rest.bucket severity =
        (report.bucket severity).filter (·.code ∉ codes)) ∧
      (rest.isValid ↔ ∀ d ∈ report.errors, d.code ∈ codes) := by
  have hbucket := options.bucket_report_without codes source
  refine ⟨options.without codes, _, _, Options.withDisabled_eq_ok hcodes options,
    validate_eq_ok source options, validate_eq_ok source _, hbucket, ?_⟩
  have herrors : ((options.without codes).report source).errors =
      (options.report source).errors.filter (·.code ∉ codes) := hbucket .error
  rw [Report.isValid_iff, herrors, List.filter_eq_nil_iff]
  simp

/-- An open tag next to an empty expression, with the complaint about the tag switched off. -/
theorem validate_withDisabled_openTag :
    (∀ code ∈ ["unmatched_tag", "no_forms"], (Catalogue.find? code).isSome) ∧
      ∃ narrowed report rest, Options.withDisabled {} ["unmatched_tag", "no_forms"] = .ok narrowed ∧
        validate "\x7b\x7b#if p\x7d\x7d\x7b\x7b \x7d\x7d".toList = .ok report ∧
        validate "\x7b\x7b#if p\x7d\x7d\x7b\x7b \x7d\x7d".toList narrowed = .ok rest ∧
        (∀ severity, rest.bucket severity = (report.bucket severity).filter
          (·.code ∉ ["unmatched_tag", "no_forms"])) ∧
        (rest.isValid ↔ ∀ d ∈ report.errors, d.code ∈ ["unmatched_tag", "no_forms"]) :=
  ⟨by decide +kernel, validate_withDisabled _ {} (by decide +kernel)⟩

/-! ### Asking for less -/

/-- The first options ask for no more than the second: they look for more guards and farther away,
have higher thresholds, know fewer marker texts, and have more codes switched off. -/
structure Options.Relaxes (relaxed options : Options) : Prop where
  contextWindow_le : options.contextWindow ≤ relaxed.contextWindow
  guardTokens_subset : options.guardTokens ⊆ relaxed.guardTokens
  repeatCount_le : options.repeatCount ≤ relaxed.repeatCount
  repeatLength_le : options.repeatLength ≤ relaxed.repeatLength
  /-- Which of the two lists a marker text stands in does not matter. -/
  markers_subset : relaxed.largeCollectionMarkers ++ relaxed.quantifierMarkers ⊆
    options.largeCollectionMarkers ++ options.quantifierMarkers
  disabled_subset : options.disabled ⊆ relaxed.disabled

/-- A wider window holds the narrower one. -/
private theorem Markup.Marker.context_infix (m : Marker) {radius wider : Nat} (h : radius ≤ wider)
    (source : List Char) : m.context radius source <:+: m.context wider source := by
  obtain ⟨k, hk⟩ := Nat.exists_eq_add_of_le (show m.start - wider ≤ m.start - radius by omega)
  -- the narrower window begins `k` characters into the wider one
  have hcontext : m.context radius source =
      ((m.context wider source).drop k).take (m.stop + radius - (m.start - radius)) := by
    rw [Marker.context, Marker.context, List.drop_drop, ← hk, ← List.drop_take, List.take_take,
      Nat.min_eq_left (by omega)]
  rw [hcontext]
  exact (List.take_prefix _ _).isInfix.trans (List.drop_suffix k _).isInfix

private theorem occursIn_of_infix {needle text larger : List Char} (h : text <:+: larger)
    (hneedle : occursIn needle text) : occursIn needle larger :=
  occursIn_iff.mpr (List.IsInfix.trans (occursIn_iff.mp hneedle) h)

theorem Spec.when_sublist (spec : Spec) {holds other : Bool} (h : holds → other) :
    (spec.when holds).Sublist (spec.when other) := by
  cases holds with
  | false => exact List.nil_sublist _
  | true => rw [h rfl]

namespace Options.Relaxes

variable {relaxed options : Options}

/-- A guard that counts still counts when less is asked for. -/
theorem guards (h : relaxed.Relaxes options) {source : List Char} {m : Marker}
    (hguards : options.guards source m) : relaxed.guards source m := by
  obtain ⟨token, htoken, hoccurs⟩ := List.any_eq_true.mp hguards
  refine List.any_eq_true.mpr ⟨token, h.guardTokens_subset htoken, ?_⟩
  exact occursIn_of_infix (m.context_infix h.contextWindow_le source) hoccurs

private theorem enabledKinds_sublist (h : relaxed.Relaxes options) :
    relaxed.enabledKinds.Sublist options.enabledKinds := by
  refine List.monotone_filter_right _ fun kind hkind => ?_
  rw [decide_eq_true_eq] at hkind ⊢
  exact fun hmem => hkind (h.disabled_subset hmem)

/-- Each rule finds less when less is asked for, and finds it in the same order. -/
theorem findings_sublist (h : relaxed.Relaxes options) (source : List Char) (kind : Kind) :
    (kind.findings relaxed source).Sublist (kind.findings options source) := by
  cases kind with
  | dataOptimization =>
    refine Spec.when_sublist _ fun hany => ?_
    obtain ⟨marker, hmarker, hoccurs⟩ := List.any_eq_true.mp hany
    exact List.any_eq_true.mpr ⟨marker, h.markers_subset hmarker, hoccurs⟩
  | nilCheck =>
    refine (List.monotone_filter_right _ fun m hm => ?_).map _
    rw [Bool.not_eq_true'] at hm ⊢
    exact Bool.eq_false_iff.mpr fun hguards => Bool.eq_false_iff.mp hm (h.guards hguards)
  | repeatedExpression =>
    refine (List.monotone_filter_right _ fun entry hentry => ?_).map _
    have hcount := h.repeatCount_le
    have hlength := h.repeatLength_le
    simp only [Bool.and_eq_true, decide_eq_true_eq] at hentry ⊢
    omega
  -- the other rules do not read the options
  | emptyExpression | excessiveRawOutput | missingAltText | nestedLoops | noForms
  | unmatchedBrackets | unmatchedTag => exact List.Sublist.refl _

end Options.Relaxes

/-- **Asking for less only removes findings**: each bucket of the report under the relaxed options
is a part of the same bucket under the others, in the same order. -/
theorem validate_relaxes {relaxed options : Options} (h : relaxed.Relaxes options)
    (source : List Char) :
    ∃ fewer report, validate source relaxed = .ok fewer ∧ validate source options = .ok report ∧
      ∀ severity, (fewer.bucket severity).Sublist (report.bucket severity) := by
  refine ⟨_, _, validate_eq_ok source relaxed, validate_eq_ok source options, fun severity => ?_⟩
  rw [Options.bucket_report, Options.bucket_report]
  have hkinds := h.enabledKinds_sublist.filter (·.spec.severity = severity.label)
  exact (List.Sublist.flatMap_right _ fun kind _ => h.findings_sublist source kind).trans
    (hkinds.flatMap _)

/-- A window beyond the end of any template, another guard, higher thresholds, one marker text
dropped and the other moved, and a code switched off. -/
theorem validate_relaxes_farther :
    ∃ relaxed : Options, relaxed.contextWindow = 10000 ∧ relaxed.disabled = [.noForms] ∧
      relaxed.Relaxes {} ∧
      ∃ fewer report,
        validate "\x7b\x7b p.q \x7d\x7d\x7b\x7b#with p\x7d\x7d".toList relaxed = .ok fewer ∧
        validate "\x7b\x7b p.q \x7d\x7d\x7b\x7b#with p\x7d\x7d".toList {} = .ok report ∧
        ∀ severity, (fewer.bucket severity).Sublist (report.bucket severity) := by
  let relaxed : Options :=
    { contextWindow := 10000
      guardTokens := ["with ", "unless ", "if "]
      repeatCount := 4
      repeatLength := 20
      largeCollectionMarkers := ["all "]
      quantifierMarkers := []
      disabled := [.noForms]
      disabled_sublist := by decide }
  have h : relaxed.Relaxes {} := by constructor <;> decide
  exact ⟨relaxed, rfl, rfl, h, validate_relaxes h _⟩

end TemplateLint
