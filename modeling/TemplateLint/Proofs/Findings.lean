import TemplateLint.Lint.Session
import TemplateLint.Proofs.MarkerScan
import TemplateLint.Proofs.Wordings

/-!
# What the built-in rules find

Rules can fail, and so can sorting what they find. The built-in rules never do: `Kind.findings` is
what the rule for a code finds, as a list, and `Kind.check_rule` says that this is what its check
returns. A run of all of them is then `validate_eq_ok`: the findings of the codes that are switched
on, in the order of the passes, sorted by severity.

* Every hole of a wording has a value.
* Every window around a property access is a span, because a marker lies inside the template
  (`MarkerForm.exists_append_of_mem`).
* Every finding carries the severity of its code (`Kind.exists_describes_of_mem_findings`), so a
  bucket holds the findings of the codes of its severity (`Options.bucket_report`).
-/

namespace TemplateLint

open TemplateLint.Markup TemplateLint.Text

/-! ### Steps that never fail -/

section Traversals

variable {α β ε : Type}

theorem mapM_eq_ok {f : α → Except ε β} {g : α → β} {l : List α}
    (h : ∀ a ∈ l, f a = .ok (g a)) : l.mapM f = .ok (l.map g) := by
  induction l with
  | nil => rfl
  | cons a l ih =>
    obtain ⟨ha, hl⟩ := List.forall_mem_cons.mp h
    rw [List.mapM_cons, ha, ih hl]
    rfl

private theorem filterAuxM_eq_ok {f : α → Except ε Bool} {p : α → Bool} {l : List α} (kept : List α)
    (h : ∀ a ∈ l, f a = .ok (p a)) :
    l.filterAuxM f kept = .ok ((l.filter p).reverse ++ kept) := by
  induction l generalizing kept with
  | nil => rfl
  | cons a l ih =>
    obtain ⟨ha, hl⟩ := List.forall_mem_cons.mp h
    have hstep : (a :: l).filterAuxM f kept =
        l.filterAuxM f (bif p a then a :: kept else kept) := by
      rw [List.filterAuxM, ha]
      rfl
    rw [hstep, ih _ hl]
    cases hp : p a with
    | false => simp [hp]
    | true => simp [hp]

private theorem filterM_eq_ok {f : α → Except ε Bool} {p : α → Bool} {l : List α}
    (h : ∀ a ∈ l, f a = .ok (p a)) : l.filterM f = .ok (l.filter p) := by
  rw [List.filterM, filterAuxM_eq_ok [] h]
  simp [bind, Except.bind, pure, Except.pure]

/-- What the members that are kept give is what all of them give, if the others give nothing. -/
theorem flatMap_filter (p : α → Prop) [DecidablePred p] (f : α → List β)
    (l : List α) :
    (l.filter p).flatMap f = l.flatMap fun a => if p a then f a else [] := by
  induction l with
  | nil => rfl
  | cons a l ih =>
    rw [List.flatMap_cons, ← ih]
    by_cases h : p a
    · rw [List.filter_cons_of_pos (by simpa using h), List.flatMap_cons, if_pos h]
    · rw [List.filter_cons_of_neg (by simpa using h), if_neg h, List.nil_append]

/-- A test that all members pass or all fail keeps all of them or none. -/
theorem filter_eq_ite {p : α → Bool} {q : Prop} [Decidable q] {l : List α}
    (h : ∀ a ∈ l, p a ↔ q) : l.filter p = if q then l else [] := by
  split
  · next hq => exact List.filter_eq_self.mpr fun a ha => (h a ha).mpr hq
  · next hq => exact List.filter_eq_nil_iff.mpr fun a ha => mt (h a ha).mp hq

end Traversals

/-! ### Windows around markers -/

/-- A marker stands in the text at the offset it names. -/
theorem Markup.MarkerForm.exists_append_of_mem {form : MarkerForm} {pos : Nat} {text : List Char}
    {m : Marker} (h : m ∈ form.markersFrom pos text) :
    ∃ before later, text = before ++ (m.text ++ later) ∧ m.start = pos + before.length := by
  fun_induction MarkerForm.markersFrom form pos text with
  | case1 => simp at h
  | case2 => simp at h
  | case3 pos text o hfind body brace later hbrace haccepts marker ih =>
    obtain ⟨before, htext, hstart, -⟩ := Pattern.find?_eq_some hfind
    have hrest : o.rest = body ++ brace :: later := by
      rw [← hbrace, List.takeWhile_append_dropWhile]
    have hclose : form.close <+: brace :: later := by
      rw [MarkerForm.accepts, Bool.and_eq_true] at haccepts
      exact List.isPrefixOf_iff_prefix.mp haccepts.1
    obtain ⟨tail, htail⟩ := hclose
    have hmarker : text = before ++ (marker.text ++ tail) := by
      rw [htext, hrest, ← htail]
      simp [marker, Marker.text]
    -- the marker is the one taken here, or stands behind it
    rcases List.mem_cons.mp h with rfl | h
    · exact ⟨before, tail, hmarker, hstart⟩
    · rw [← htail, List.drop_left] at ih h
      obtain ⟨front, back, hfront, hm⟩ := ih h
      refine ⟨before ++ marker.text ++ front, back, ?_, ?_⟩
      · rw [hmarker, hfront]
        simp
      · have hstop : marker.stop = pos + before.length + marker.text.length := by
          rw [Marker.stop, ← hstart]
        rw [hm, hstop]
        simp only [List.length_append]
        omega
  | case4 pos text o hfind body brace later hbrace haccepts ih =>
    obtain ⟨before, htext, hstart, -⟩ := Pattern.find?_eq_some hfind
    have hrest : o.rest = body ++ brace :: later := by
      rw [← hbrace, List.takeWhile_append_dropWhile]
    -- the head that failed is passed over with its brace
    obtain ⟨front, back, hfront, hm⟩ := ih h
    refine ⟨before ++ o.matched ++ body ++ brace :: front, back, ?_, ?_⟩
    · rw [htext, hrest, hfront]
      simp
    · rw [hm, Occurrence.stop, hstart]
      simp only [List.length_append, List.length_cons]
      omega

/-- The text around a marker, as far as `radius` reaches. -/
def Markup.Marker.context (m : Marker) (radius : Nat) (source : List Char) : List Char :=
  (source.take (m.stop + radius)).drop (m.start - radius)

/-- Whether a guard stands near a marker. -/
def Options.guards (options : Options) (source : List Char) (m : Marker) : Bool :=
  options.guardTokens.any fun token =>
    occursIn token.toList (m.context options.contextWindow source)

/-- A span inside a text can be widened by any radius: both ends are cut off at the text, and the
span keeps them apart. -/
theorem Text.Span.widen_eq_ok {span : Span} {limit : Nat} (h : span.stop ≤ limit) (radius : Nat) :
    span.widen radius limit =
      .ok ⟨span.start - radius, min limit (span.stop + radius), by grind [span.ordered]⟩ := by
  rw [widen_eq_ok_iff]
  simp only
  omega

private theorem Rule.isGuarded_eq_ok {m : Marker} {source : List Char} (hm : m.stop ≤ source.length)
    (options : Options) :
    Rule.isGuarded options source source.length m = .ok (options.guards source m) := by
  have hle : m.start ≤ m.stop := by
    rw [Marker.stop]
    omega
  let window : Span := ⟨m.start - options.contextWindow,
    min source.length (m.stop + options.contextWindow), by omega⟩
  have hwiden : m.span.widen options.contextWindow source.length = .ok window :=
    Span.widen_eq_ok hm _
  have hslice : window.slice source = m.context options.contextWindow source := by
    rw [Marker.context, List.drop_take, Span.slice]
    rw [List.take_eq_take_iff, List.length_drop]
    simp only [window]
    omega
  rw [Rule.isGuarded, hwiden]
  simp only [bind, Except.bind, pure, Except.pure, hslice, Options.guards]

/-! ### The findings of each code -/

/-- The finding of an entry without holes or place, if it applies. -/
def Spec.when (spec : Spec) (holds : Bool) : List Diagnostic :=
  if holds then [spec.worded spec.message none] else []

private theorem findingWhen_eq_ok (holds : Bool) (spec : Spec) :
    findingWhen holds spec = .ok (spec.when holds) := by
  cases holds with
  | false => rfl
  | true => rfl

theorem Spec.eq_worded_of_mem_when {spec : Spec} {holds : Bool} {d : Diagnostic}
    (h : d ∈ spec.when holds) : d = spec.worded spec.message none := by
  rw [Spec.when] at h
  split at h
  · exact List.mem_singleton.mp h
  · simp at h

namespace Kind

/-- The rule that reports under a code. -/
def rule : Kind → Rule
  | .dataOptimization => .dataOptimization
  | .emptyExpression => .emptyExpression
  | .excessiveRawOutput => .excessiveRawOutput
  | .missingAltText => .missingAltText
  | .nestedLoops => .nestedLoops
  | .nilCheck => .nilCheck
  | .noForms => .noForms
  | .repeatedExpression => .repeatedExpression
  | .unmatchedBrackets => .unbalancedBraces
  | .unmatchedTag => .unmatchedTag

/-- The codes in the order in which their rules run. -/
def inRunOrder : List Kind :=
  [.unmatchedTag, .emptyExpression, .unmatchedBrackets, .noForms, .nilCheck, .excessiveRawOutput,
    .missingAltText, .nestedLoops, .dataOptimization, .repeatedExpression]

theorem map_rule_inRunOrder : inRunOrder.map rule = Rule.defaults := rfl

theorem code_rule (kind : Kind) : kind.rule.code = kind.code := by
  cases kind <;> rfl

/-- What the rule for a code finds. -/
def findings (options : Options) (source : List Char) : Kind → List Diagnostic
  | .dataOptimization =>
    Catalogue.dataOptimization.when
      ((options.largeCollectionMarkers ++ options.quantifierMarkers).any fun marker =>
        occursIn marker.toList source)
  | .emptyExpression =>
    (blankExpressions source).map fun m =>
      Catalogue.emptyExpression.worded Catalogue.emptyExpression.message (some m.span)
  | .excessiveRawOutput =>
    Catalogue.excessiveRawOutput.when (decide (escapedCount source < rawCount source))
  | .missingAltText =>
    Catalogue.missingAltText.when
      (occursIn "<img".toList source && !occursIn "alt=".toList source)
  | .nestedLoops =>
    (nestedLoop? source).toList.map fun span =>
      Catalogue.nestedLoops.worded Catalogue.nestedLoops.message (some span)
  | .nilCheck =>
    ((propertyAccesses source).filter fun m => !options.guards source m).map Marker.unguarded
  | .noForms => Catalogue.noForms.when (!hasForm source)
  | .repeatedExpression =>
    ((tally source).filter fun (expression, count) =>
      decide (options.repeatCount < count) && decide (options.repeatLength < expression.length)).map
        fun (expression, count) => repetition expression count
  | .unmatchedBrackets =>
    ((excessClosers source).map fun offset =>
      Catalogue.unmatchedClosingBrackets.worded Catalogue.unmatchedClosingBrackets.message
        (some (Span.ofLength offset 1))) ++
      Catalogue.unmatchedOpeningBrackets.when (endsOpen source)
  | .unmatchedTag =>
    (unclosedTags source).map OpeningTag.unclosed ++
      (unopenedTags source).map ClosingTag.unopened

theorem stop_le_of_mem_propertyAccesses {source : List Char} {m : Marker}
    (h : m ∈ propertyAccesses source) : m.stop ≤ source.length := by
  rw [propertyAccesses, List.mem_filter] at h
  obtain ⟨before, later, hsource, hstart⟩ := MarkerForm.exists_append_of_mem h.1
  have hlength := congrArg List.length hsource
  simp only [Int.toNat_zero, List.drop_zero, List.length_append] at hlength hstart
  rw [Marker.stop]
  omega

/-- **No built-in rule fails**, whatever the template and the options. -/
theorem check_rule (options : Options) (source : List Char) (kind : Kind) :
    kind.rule.check options source = .ok (kind.findings options source) := by
  cases kind with
  | dataOptimization => exact findingWhen_eq_ok _ _
  | emptyExpression => exact mapM_eq_ok fun m _ => finding_nil _ _
  | excessiveRawOutput => exact findingWhen_eq_ok _ _
  | missingAltText => exact findingWhen_eq_ok _ _
  | nestedLoops => exact mapM_eq_ok fun span _ => finding_nil _ _
  | nilCheck =>
    have hguarded : (propertyAccesses source).filterM (fun m =>
        ((!·) <$> Rule.isGuarded options source source.length m).mapError RuleError.span) =
          .ok ((propertyAccesses source).filter fun m => !options.guards source m) := by
      refine filterM_eq_ok fun m hm => ?_
      rw [Rule.isGuarded_eq_ok (stop_le_of_mem_propertyAccesses hm)]
      rfl
    have hfound := mapM_eq_ok (l := (propertyAccesses source).filter fun m =>
      !options.guards source m) fun m _ => finding_nilCheck m
    simp only [rule, Rule.nilCheck, hguarded]
    exact hfound
  | noForms => exact findingWhen_eq_ok _ _
  | repeatedExpression =>
    exact mapM_eq_ok fun entry _ => finding_repeatedExpression entry.1 entry.2
  | unmatchedBrackets =>
    have hclosing := mapM_eq_ok (l := excessClosers source) fun offset _ =>
      finding_nil Catalogue.unmatchedClosingBrackets (some (Span.ofLength offset 1))
    simp only [rule, Rule.unbalancedBraces, hclosing, findingWhen_eq_ok]
    rfl
  | unmatchedTag =>
    have hunclosed := mapM_eq_ok (l := unclosedTags source) fun tag _ => finding_unmatchedTag tag
    have hunopened := mapM_eq_ok (l := unopenedTags source) fun tag _ =>
      finding_unmatchedClosingTag tag
    simp only [rule, Rule.unmatchedTag, hunclosed, hunopened]
    rfl

/-- An entry of the catalogue under a code, with the severity and the pass of the code. -/
structure Describes (kind : Kind) (spec : Spec) : Prop where
  mem_specs : spec ∈ Catalogue.specs
  code_eq : spec.code = kind.code
  severity_eq : spec.severity = kind.spec.severity
  category_eq : spec.category = kind.spec.category

theorem describes_spec (kind : Kind) : kind.Describes kind.spec := by
  refine ⟨?_, rfl, rfl, rfl⟩
  cases kind <;> simp [spec, Catalogue.specs]

private theorem describes_unmatchedClosingTag :
    Kind.unmatchedTag.Describes Catalogue.unmatchedClosingTag :=
  ⟨by simp [Catalogue.specs], rfl, rfl, rfl⟩

theorem describes_unmatchedOpeningBrackets :
    Kind.unmatchedBrackets.Describes Catalogue.unmatchedOpeningBrackets :=
  ⟨by simp [Catalogue.specs], rfl, rfl, rfl⟩

/-- Every finding is made from an entry of the catalogue for the code of its rule. -/
theorem exists_describes_of_mem_findings {options : Options} {source : List Char} {kind : Kind}
    {d : Diagnostic} (h : d ∈ kind.findings options source) :
    ∃ spec, kind.Describes spec ∧ ∃ message span, d = spec.worded message span := by
  cases kind with
  | dataOptimization => exact ⟨_, describes_spec _, _, _, Spec.eq_worded_of_mem_when h⟩
  | emptyExpression =>
    obtain ⟨m, -, rfl⟩ := List.mem_map.mp h
    exact ⟨_, describes_spec _, _, _, rfl⟩
  | excessiveRawOutput => exact ⟨_, describes_spec _, _, _, Spec.eq_worded_of_mem_when h⟩
  | missingAltText => exact ⟨_, describes_spec _, _, _, Spec.eq_worded_of_mem_when h⟩
  | nestedLoops =>
    obtain ⟨span, -, rfl⟩ := List.mem_map.mp h
    exact ⟨_, describes_spec _, _, _, rfl⟩
  | nilCheck =>
    obtain ⟨m, -, rfl⟩ := List.mem_map.mp h
    exact ⟨_, describes_spec _, _, _, rfl⟩
  | noForms => exact ⟨_, describes_spec _, _, _, Spec.eq_worded_of_mem_when h⟩
  | repeatedExpression =>
    obtain ⟨entry, -, rfl⟩ := List.mem_map.mp h
    exact ⟨_, describes_spec _, _, _, rfl⟩
  | unmatchedBrackets =>
    rcases List.mem_append.mp h with h | h
    · obtain ⟨offset, -, rfl⟩ := List.mem_map.mp h
      exact ⟨_, describes_spec _, _, _, rfl⟩
    · exact ⟨_, describes_unmatchedOpeningBrackets, _, _, Spec.eq_worded_of_mem_when h⟩
  | unmatchedTag =>
    rcases List.mem_append.mp h with h | h
    · obtain ⟨tag, -, rfl⟩ := List.mem_map.mp h
      exact ⟨_, describes_spec _, _, _, rfl⟩
    · obtain ⟨tag, -, rfl⟩ := List.mem_map.mp h
      exact ⟨_, describes_unmatchedClosingTag, _, _, rfl⟩

theorem severity_of_mem_findings {options : Options} {source : List Char} {kind : Kind}
    {d : Diagnostic} (h : d ∈ kind.findings options source) :
    d.severity = kind.spec.severity := by
  obtain ⟨spec, hspec, message, span, rfl⟩ := exists_describes_of_mem_findings h
  exact hspec.severity_eq

/-- Of the findings of a code, those of a severity are all of them or none. -/
private theorem filter_findings (options : Options) (source : List Char) (severity : Severity)
    (kind : Kind) :
    (kind.findings options source).filter (Diagnostic.hasSeverity severity) =
      if kind.spec.severity = severity.label then kind.findings options source else [] := by
  refine filter_eq_ite fun d hd => ?_
  rw [Diagnostic.hasSeverity, severity_of_mem_findings hd, beq_iff_eq]

end Kind

/-! ### The report of a run -/

theorem Options.isEnabled_code_iff {options : Options} {kind : Kind} :
    options.isEnabled kind.code ↔ kind ∉ options.disabled := by
  have hcode : ∀ other : Kind, other.code = kind.code ↔ other = kind := by
    intro other
    refine ⟨fun h => ?_, congrArg Kind.code⟩
    have hsome := congrArg Kind.ofCode? h
    rw [Kind.ofCode?_code, Kind.ofCode?_code] at hsome
    exact Option.some.inj hsome
  simp only [isEnabled, Bool.not_eq_true', List.any_eq_false, beq_iff_eq, hcode]
  exact ⟨fun h hmem => h kind hmem rfl, fun h other hmem heq => h (heq ▸ hmem)⟩

/-- The codes that are switched on, in the order in which their rules run. -/
def Options.enabledKinds (options : Options) : List Kind :=
  Kind.inRunOrder.filter (· ∉ options.disabled)

/-- Everything that a run of the built-in rules finds. -/
def Options.findings (options : Options) (source : List Char) : List Diagnostic :=
  options.enabledKinds.flatMap (Kind.findings options source)

/-- The findings of a run by severity. -/
def Options.report (options : Options) (source : List Char) : Report where
  errors := (options.findings source).filter (Diagnostic.hasSeverity .error)
  warnings := (options.findings source).filter (Diagnostic.hasSeverity .warning)
  suggestions := (options.findings source).filter (Diagnostic.hasSeverity .suggestion)

theorem ofDiagnostics_findings (options : Options) (source : List Char) :
    Report.ofDiagnostics (options.findings source) = .ok (options.report source) := by
  have hlabels : ∀ kind ∈ Kind.all, (Severity.ofLabel? kind.spec.severity).isNone = false := by
    decide +kernel
  have hvalid : Report.firstInvalid? (options.findings source) = none := by
    rw [Report.firstInvalid?, List.find?_eq_none]
    intro d hd
    obtain ⟨kind, -, hkind⟩ := List.mem_flatMap.mp hd
    rw [Kind.severity_of_mem_findings hkind, hlabels kind kind.mem_all]
    exact Bool.false_ne_true
  rw [Report.ofDiagnostics_eq, hvalid]
  rfl

/-- What becomes of the rule for a code in a run. -/
def Kind.run (options : Options) (source : List Char) (kind : Kind) : RuleRun :=
  if kind ∉ options.disabled then .completed kind.rule (kind.findings options source)
  else .skipped kind.rule

theorem Kind.run_rule (options : Options) (source : List Char) (kind : Kind) :
    kind.rule.run options source = .ok (kind.run options source) := by
  rw [Rule.run, code_rule, check_rule, Kind.run]
  by_cases h : kind ∉ options.disabled
  · rw [if_pos h, if_pos (Options.isEnabled_code_iff.mpr h)]
    rfl
  · rw [if_neg h, if_neg (mt Options.isEnabled_code_iff.mp h)]

private theorem Kind.found_run (options : Options) (source : List Char) (kind : Kind) :
    (kind.run options source).found =
      if kind ∉ options.disabled then kind.findings options source else [] := by
  rw [Kind.run]
  split
  · rfl
  · rfl

/-- The built-in rules are given in the order in which they run. -/
theorem orderByPass_defaults : orderByPass Rule.defaults = Rule.defaults :=
  List.mergeSort_of_pairwise (by decide +kernel)

/-- **A run of the built-in rules never fails**: every code has a run, and the findings of the codes
that are switched on make the report. -/
theorem lint_eq_ok (source : List Char) (options : Options) :
    lint source options =
      .ok ⟨source, Kind.inRunOrder.map (Kind.run options source), options.report source⟩ := by
  have hsession : Session.create source options Rule.defaults =
      .ok ⟨source, options, Rule.defaults, .fresh⟩ := by
    rw [Session.create, orderByPass_defaults]
    rfl
  -- no rule fails, so every code has a run
  have hruns : Rule.defaults.mapM (Rule.run options source) =
      .ok (Kind.inRunOrder.map (Kind.run options source)) := by
    rw [← Kind.map_rule_inRunOrder, List.mapM_map]
    exact mapM_eq_ok fun kind _ => kind.run_rule options source
  have hfound : (Kind.inRunOrder.map (Kind.run options source)).flatMap RuleRun.found =
      options.findings source := by
    rw [Options.findings, Options.enabledKinds, flatMap_filter, List.flatMap_map]
    simp only [Kind.found_run]
  have hrun : runRules options source Rule.defaults =
      .ok ⟨source, Kind.inRunOrder.map (Kind.run options source), options.report source⟩ := by
    simp only [runRules, hruns, Except.mapError, bind, Except.bind, hfound,
      ofDiagnostics_findings]
    rfl
  have hscan : (Session.scan ⟨source, options, Rule.defaults, .fresh⟩).1 =
      .ok ⟨source, Kind.inRunOrder.map (Kind.run options source), options.report source⟩ := by
    simp only [Session.scan, hrun]
  rw [lint, hsession]
  simp only [Except.mapError, bind, Except.bind, hscan]

/-- **A run of the built-in rules always gives a report**: the findings of the codes that are
switched on, in the order of the passes, sorted by severity. -/
theorem validate_eq_ok (source : List Char) (options : Options) :
    validate source options = .ok (options.report source) := by
  rw [validate, lint_eq_ok]
  rfl

/-- The findings of one severity are those of the codes of that severity. -/
theorem Options.bucket_report (options : Options) (source : List Char) (severity : Severity) :
    (options.report source).bucket severity =
      (options.enabledKinds.filter (·.spec.severity = severity.label)).flatMap
        (Kind.findings options source) := by
  have hbucket : (options.report source).bucket severity =
      (options.findings source).filter (Diagnostic.hasSeverity severity) := by
    cases severity <;> rfl
  rw [hbucket, Options.findings, List.filter_flatMap, flatMap_filter]
  simp only [Kind.filter_findings]

/-- The codes of errors, in the order in which their rules run. -/
def Kind.errors : List Kind :=
  [.unmatchedTag, .emptyExpression, .unmatchedBrackets]

theorem Options.errors_report (options : Options) (source : List Char) :
    (options.report source).errors =
      (Kind.errors.filter (· ∉ options.disabled)).flatMap (Kind.findings options source) := by
  have hkinds : Kind.inRunOrder.filter (·.spec.severity = Severity.error.label) = Kind.errors := by
    decide +kernel
  have h := options.bucket_report source .error
  -- the codes of errors are taken first, so that they can be listed
  rw [Options.enabledKinds, List.filter_filter] at h
  simp only [Bool.and_comm] at h
  rw [← List.filter_filter, hkinds] at h
  exact h

end TemplateLint
