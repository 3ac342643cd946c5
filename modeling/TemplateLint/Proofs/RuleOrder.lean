import TemplateLint.Lint.Session
import TemplateLint.Proofs.Failures

/-!
# The order in which rules run

A run sorts its rules by their passes. The sort is stable, so what it does to rules that a run
accepts can be said without it: `orderByPass_eq` is the rules of the first pass as they were given,
then those of the second, then those of the third. Each rule list is thus known to a run only
through its three passes, and `lint_passByPass` says so: two lists with the same passes give the
same outcome, whether that is a report or a failure, with the same log of what became of each rule.

Stability is used once, in `filter_mergeSort_of_tied`: a sort keeps the order of any members that it
cannot tell apart, so it keeps each pass (`ofPass_orderByPass`). The rest is about sorted lists.
-/

namespace TemplateLint

variable {rules : List Rule}

/-- The rules of one pass, as they are given. -/
def ofPass (stage : Pass) (rules : List Rule) : List Rule :=
  rules.filter fun rule => rule.category == stage.label

/-- The rules of the first pass, then those of the second, then those of the third. -/
def passByPass (rules : List Rule) : List Rule :=
  ofPass .markup rules ++ ofPass .convention rules ++ ofPass .performance rules

/-! ### Passes and ranks -/

/-- A rule that a run accepts belongs to a pass. -/
private theorem exists_category_of_checkRules (h : checkRules rules = .ok ()) {rule : Rule}
    (hrule : rule ∈ rules) : ∃ stage : Pass, rule.category = stage.label := by
  have hfault := checkRules_eq_ok_iff.mp h rule hrule
  cases hstage : Pass.ofLabel? rule.category with
  | none => simp [Rule.fault?, hstage] at hfault
  | some stage => exact ⟨stage, (Pass.label_of_ofLabel? hstage).symm⟩

theorem Rule.rank_eq {rule : Rule} {stage : Pass} (h : rule.category = stage.label) :
    rule.rank = Pass.all.idxOf stage := by
  rw [Rule.rank, h]
  cases stage <;> decide +kernel

/-- Rules that come after a pass hold none of it. -/
private theorem ofPass_eq_nil {stage : Pass}
    (h : ∀ rule ∈ rules, Pass.all.idxOf stage < rule.rank) :
    ofPass stage rules = [] := by
  refine List.filter_eq_nil_iff.mpr fun rule hrule hcategory => ?_
  have hlt := h rule hrule
  rw [Rule.rank_eq (beq_iff_eq.mp hcategory)] at hlt
  exact Nat.lt_irrefl _ hlt

private theorem ofPass_cons {rule : Rule} {own : Pass} (h : rule.category = own.label)
    (stage : Pass) :
    ofPass stage (rule :: rules) =
      if own = stage then rule :: ofPass stage rules else ofPass stage rules := by
  rw [ofPass, List.filter_cons, h]
  cases own <;> cases stage <;> rfl

/-! ### Sorting by rank -/

/-- A stable sort keeps the order of the members that pass a test, if it cannot tell them apart. -/
theorem filter_mergeSort_of_tied {α : Type} {le : α → α → Bool} {p : α → Bool} (l : List α)
    (htrans : ∀ a b c, le a b → le b c → le a c) (htotal : ∀ a b, le a b || le b a)
    (htied : ∀ a b, p a → p b → le a b) : (l.mergeSort le).filter p = l.filter p := by
  have hpairwise : (l.filter p).Pairwise fun a b => le a b :=
    List.pairwise_filter.mpr (List.pairwise_of_forall htied)
  have hsublist := (List.sublist_mergeSort htrans htotal hpairwise List.filter_sublist).filter p
  rw [List.filter_filter] at hsublist
  simp only [Bool.and_self] at hsublist
  have hlength := ((List.mergeSort_perm l le).filter p).length_eq
  exact (hsublist.eq_of_length hlength.symm).symm

private theorem rank_le_trans (a b c : Rule) (hab : decide (a.rank ≤ b.rank))
    (hbc : decide (b.rank ≤ c.rank)) : decide (a.rank ≤ c.rank) := by
  rw [decide_eq_true_eq] at hab hbc ⊢
  exact Nat.le_trans hab hbc

private theorem rank_le_total (a b : Rule) :
    decide (a.rank ≤ b.rank) || decide (b.rank ≤ a.rank) := by
  simpa using Nat.le_total a.rank b.rank

theorem pairwise_orderByPass (rules : List Rule) :
    (orderByPass rules).Pairwise fun a b => a.rank ≤ b.rank :=
  (List.pairwise_mergeSort rank_le_trans rank_le_total rules).imp of_decide_eq_true

/-- The sort leaves each pass as it was given. -/
theorem ofPass_orderByPass (stage : Pass) (rules : List Rule) :
    ofPass stage (orderByPass rules) = ofPass stage rules := by
  refine filter_mergeSort_of_tied rules rank_le_trans rank_le_total fun a b ha hb => ?_
  rw [Rule.rank_eq (beq_iff_eq.mp ha), Rule.rank_eq (beq_iff_eq.mp hb)]
  exact decide_eq_true (Nat.le_refl _)

/-- Rules that stand in the order of their passes are their passes one after the other. -/
private theorem passByPass_eq_self
    (hpasses : ∀ rule ∈ rules, ∃ stage : Pass, rule.category = stage.label)
    (hsorted : rules.Pairwise fun a b => a.rank ≤ b.rank) : passByPass rules = rules := by
  induction rules with
  | nil => rfl
  | cons rule rules ih =>
    obtain ⟨hfirst, hlater⟩ := List.pairwise_cons.mp hsorted
    obtain ⟨⟨own, hown⟩, hrest⟩ := List.forall_mem_cons.mp hpasses
    -- the passes before that of the first rule are over
    have hover : ∀ stage, Pass.all.idxOf stage < Pass.all.idxOf own → ofPass stage rules = [] := by
      intro stage hlt
      refine ofPass_eq_nil fun other hother => ?_
      rw [← Rule.rank_eq hown] at hlt
      exact Nat.lt_of_lt_of_le hlt (hfirst other hother)
    have ih := ih hrest hlater
    rw [passByPass] at ih
    simp only [passByPass, ofPass_cons hown]
    cases own with
    | markup => simpa using ih
    | convention =>
      rw [hover .markup (by decide)] at ih ⊢
      simpa using ih
    | performance =>
      rw [hover .markup (by decide), hover .convention (by decide)] at ih ⊢
      simpa using ih

/-- **Sorting puts the passes one after the other** and changes nothing inside a pass. -/
theorem orderByPass_eq (h : checkRules rules = .ok ()) : orderByPass rules = passByPass rules := by
  have hpasses : ∀ rule ∈ orderByPass rules, ∃ stage : Pass, rule.category = stage.label :=
    fun rule hrule => exists_category_of_checkRules h (List.mem_mergeSort.mp hrule)
  calc orderByPass rules
      = passByPass (orderByPass rules) :=
        (passByPass_eq_self hpasses (pairwise_orderByPass rules)).symm
    _ = passByPass rules := by simp only [passByPass, ofPass_orderByPass]

/-- Rules that a run accepts can be sorted, and sorting them again changes nothing. -/
private theorem order_eq_ok (h : checkRules rules = .ok ()) :
    order rules = .ok (passByPass rules) ∧ order (passByPass rules) = .ok (passByPass rules) := by
  have hknown : ∀ rule ∈ rules, (Pass.ofLabel? rule.category).isSome := by
    intro rule hrule
    obtain ⟨stage, hstage⟩ := exists_category_of_checkRules h hrule
    rw [hstage, Pass.ofLabel?_label, Option.isSome_some]
  rw [← orderByPass_eq h]
  constructor
  · rw [order, if_pos (List.all_eq_true.mpr hknown)]
  · have hordered : ∀ rule ∈ orderByPass rules, (Pass.ofLabel? rule.category).isSome :=
      fun rule hrule => hknown rule (List.mem_mergeSort.mp hrule)
    rw [order, if_pos (List.all_eq_true.mpr hordered)]
    exact congrArg _ (List.mergeSort_of_pairwise
      ((pairwise_orderByPass rules).imp decide_eq_true))

/-! ### Runs -/

section Runs

variable {options : Options} {source : List Char}

/-- The rule that an entry of the log is about. -/
def RuleRun.rule : RuleRun → Rule
  | .skipped rule => rule
  | .completed rule _ => rule

private theorem Rule.rule_of_run {rule : Rule} {entry : RuleRun}
    (h : rule.run options source = .ok entry) : entry.rule = rule := by
  rw [Rule.run] at h
  split at h
  · obtain ⟨found, -, rfl⟩ := map_eq_ok_iff.mp h
    rfl
  · cases h
    rfl

/-- A run is the log of the rules and the report of what they found. -/
theorem runRules_eq_ok_iff {run : LintRun} :
    runRules options source rules = .ok run ↔
      List.Forall₂ (fun rule entry => rule.run options source = .ok entry) rules run.runs ∧
        Report.ofDiagnostics (run.runs.flatMap RuleRun.found) = .ok run.report ∧
        run.source = source := by
  obtain ⟨text, runs, report⟩ := run
  simp only [runRules, bind_eq_ok_iff, mapError_eq_ok_iff, mapM_eq_ok_iff, pure, Except.pure,
    Except.ok.injEq, LintRun.mk.injEq]
  constructor
  · rintro ⟨entries, hentries, found, hfound, rfl, rfl, rfl⟩
    exact ⟨hentries, hfound, rfl⟩
  · rintro ⟨hruns, hreport, rfl⟩
    exact ⟨runs, hruns, report, hreport, rfl, rfl, rfl⟩

/-- A run has one entry for each rule, in the order in which the rules were given. -/
private theorem map_rule_of_runRules {run : LintRun} (h : runRules options source rules = .ok run) :
    run.runs.map RuleRun.rule = rules := by
  have hrules : List.Forall₂ (fun rule entry => rule = entry.rule) rules run.runs :=
    (runRules_eq_ok_iff.mp h).1.imp fun _ _ hentry => (Rule.rule_of_run hentry).symm
  rw [← List.forall₂_map_right_iff, List.forall₂_eq_eq_eq] at hrules
  exact hrules.symm

theorem Session.create_eq_ok (h : checkRules rules = .ok ()) :
    Session.create source options rules =
      .ok { source, options, rules := passByPass rules, progress := .fresh } := by
  rw [Session.create, h, orderByPass_eq h]
  rfl

private theorem Session.scan_fresh :
    (Session.mk source options rules .fresh).scan.1 = runRules options source rules := by
  simp only [Session.scan]
  cases runRules options source rules <;> rfl

/-- Linting with rules that a run accepts is running them pass by pass. -/
theorem lint_eq_runRules (h : checkRules rules = .ok ()) :
    lint source options rules = runRules options source (passByPass rules) := by
  rw [lint, Session.create_eq_ok h, ← Session.scan_fresh]
  rfl

end Runs

/-- **Only the order inside a pass matters.** Take rules that a run accepts.

1. Rules with the same three passes give the same outcome: the same report and log, or the same
   failure.
2. The rules run pass by pass, and the log has one entry for each, in this order.
3. This is the order into which the rules are sorted, and sorting again changes nothing. -/
theorem lint_passByPass (source : List Char) (options : Options) {rules others : List Rule}
    (hrules : checkRules rules = .ok ()) (hothers : checkRules others = .ok ()) :
    ((∀ stage, ofPass stage rules = ofPass stage others) →
      lint source options rules = lint source options others) ∧
    (lint source options rules = runRules options source (passByPass rules) ∧
      ∀ run, lint source options rules = .ok run →
        run.runs.map RuleRun.rule = passByPass rules) ∧
    order rules = .ok (passByPass rules) ∧ order (passByPass rules) = .ok (passByPass rules) := by
  refine ⟨fun hpasses => ?_, ⟨lint_eq_runRules hrules, fun run hrun => ?_⟩, order_eq_ok hrules⟩
  · rw [lint_eq_runRules hrules, lint_eq_runRules hothers]
    simp only [passByPass, hpasses]
  · rw [lint_eq_runRules hrules] at hrun
    exact map_rule_of_runRules hrun

/-- A rule of the last pass that gives up, put before and between rules of the other passes. -/
theorem lint_passByPass_interleaved :
    ∃ rules others : List Rule,
      rules.map Rule.name = ["own", "nilCheck", "unmatchedTag"] ∧
      others.map Rule.name = ["nilCheck", "own", "unmatchedTag"] ∧
      checkRules rules = .ok () ∧ checkRules others = .ok () ∧
      (∀ stage, ofPass stage rules = ofPass stage others) ∧
      lint "\x7b\x7b#if p".toList {} rules = lint "\x7b\x7b#if p".toList {} others ∧
      ∃ ordered, order rules = .ok ordered ∧
        ordered.map Rule.name = ["unmatchedTag", "nilCheck", "own"] := by
  let own : Rule :=
    { name := "own"
      code := "nested_loops"
      category := "performance"
      check := fun _ _ => .error (.foreign "Timeout" "gave up") }
  let rules := [own, .nilCheck, .unmatchedTag]
  let others := [.nilCheck, own, .unmatchedTag]
  have hrules : checkRules rules = .ok () := by rfl
  have hothers : checkRules others = .ok () := by rfl
  have hpasses : ∀ stage, ofPass stage rules = ofPass stage others := by
    intro stage
    cases stage <;> rfl
  have h := lint_passByPass "\x7b\x7b#if p".toList {} hrules hothers
  exact ⟨rules, others, rfl, rfl, hrules, hothers, hpasses, h.1 hpasses, _, h.2.2.1, rfl⟩

end TemplateLint
