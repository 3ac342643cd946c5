import TemplateLint.Lint.BuiltinRules

/-!
# Lint runs

A run applies every rule that is switched on to one template, in the order of the passes, and
sorts what they find into a report. If a rule fails, or finds something of no known severity, the
run fails as a whole.

A `Session` is one template with its rules and options, and runs once. What it shows of its
findings is all or nothing: nothing before the run and nothing if the run failed, and afterwards
the whole report. A `Scanner` keeps the same in a flag and three lists.
-/

namespace TemplateLint

/-- What became of a rule in a run. -/
inductive RuleRun where
  /-- Its code is switched off. -/
  | skipped (rule : Rule)
  /-- It ran, and this is what it found. -/
  | completed (rule : Rule) (found : List Diagnostic)

/-- What the rule found. -/
def RuleRun.found : RuleRun → List Diagnostic
  | .skipped _ => []
  | .completed _ found => found

/-- Why a run gave no report. -/
inductive LintError where
  /-- The rules do not fit together. -/
  | rules (error : RulesError)
  /-- A rule failed on the template. -/
  | rule (error : RuleError)
  /-- A finding has no known severity. -/
  | severity (error : InvalidSeverity)
  /-- The session has run before. -/
  | spent
  deriving DecidableEq

/-- The wording of each cause. -/
def LintError.message : LintError → String
  | .rules error => error.message
  | .rule error => error.message
  | .severity error => error.message
  | .spent => "TemplateScanner has already run; create a new scanner per template"

/-- A run that gave a report. -/
structure LintRun where
  /-- The template. -/
  source : List Char
  /-- What became of each rule, in the order in which they ran. -/
  runs : List RuleRun
  report : Report

/-- One rule on one template. -/
def Rule.run (options : Options) (source : List Char) (rule : Rule) : Except RuleError RuleRun :=
  if options.isEnabled rule.code then (rule.check options source).map (.completed rule)
  else .ok (.skipped rule)

/-- Rules on a template, in the order in which they are given. -/
def runRules (options : Options) (source : List Char) (rules : List Rule) :
    Except LintError LintRun := do
  let runs ← (rules.mapM (Rule.run options source)).mapError .rule
  let report ← (Report.ofDiagnostics (runs.flatMap RuleRun.found)).mapError .severity
  return { source, runs, report }

/-! ### Sessions -/

/-- How far a session has come. -/
inductive Progress where
  | fresh
  /-- The run failed. -/
  | failed
  | finished (run : LintRun)

/-- One template with the rules and options for its one run. -/
structure Session where
  source : List Char
  options : Options
  /-- The rules in the order in which they run. -/
  rules : List Rule
  progress : Progress

namespace Session

/-- A new session. The rules are checked and put into the order of their passes. -/
def create (source : List Char) (options : Options) (rules : List Rule) :
    Except RulesError Session := do
  checkRules rules
  return { source, options, rules := orderByPass rules, progress := .fresh }

/-- The run of a session and the session after it. A session that has run refuses to run again,
also if its run failed. -/
def scan (session : Session) : Except LintError LintRun × Session :=
  match session.progress with
  | .fresh =>
    match runRules session.options session.source session.rules with
    | .ok run => (.ok run, { session with progress := .finished run })
    | .error error => (.error error, { session with progress := .failed })
  | _ => (.error .spent, session)

/-- The findings that the session shows. -/
def buckets (session : Session) : Report :=
  match session.progress with
  | .finished run => run.report
  | _ => {}

end Session

/-! ### Scanners

A session kept as a flag and three lists: whether it has run, and what it shows of each severity.
The flag is set before the rules run and stays set if they fail. -/

/-- One template with the rules and options for its one run, and what it shows. -/
structure Scanner where
  source : List Char
  options : Options
  /-- The rules in the order in which they run. -/
  rules : List Rule
  errors : List Diagnostic := []
  warnings : List Diagnostic := []
  suggestions : List Diagnostic := []
  /-- Whether it has run, with or without success. -/
  scanned : Bool := false

namespace Scanner

/-- A new scanner. The rules are checked and put into the order of their passes. -/
def create (source : List Char) (options : Options) (rules : List Rule) :
    Except RulesError Scanner := do
  checkRules rules
  return { source, options, rules := orderByPass rules }

/-- The run of a scanner and the scanner after it. What a run finds goes to the end of each list. -/
def scan (scanner : Scanner) : Except LintError LintRun × Scanner :=
  if scanner.scanned then (.error .spent, scanner)
  else
    let begun : Scanner := { scanner with scanned := true }
    match runRules scanner.options scanner.source scanner.rules with
    | .error error => (.error error, begun)
    | .ok run =>
      (.ok run,
        { begun with
          errors := begun.errors ++ run.report.errors
          warnings := begun.warnings ++ run.report.warnings
          suggestions := begun.suggestions ++ run.report.suggestions })

/-- The findings that the scanner shows. -/
def buckets (scanner : Scanner) : Report where
  errors := scanner.errors
  warnings := scanner.warnings
  suggestions := scanner.suggestions

end Scanner

/-! ### Linting a template -/

/-- The run of rules on a template. -/
def lint (source : List Char) (options : Options := {}) (rules : List Rule := Rule.defaults) :
    Except LintError LintRun := do
  let session ← (Session.create source options rules).mapError .rules
  session.scan.1

/-- The report of the built-in rules on a template. -/
def validate (source : List Char) (options : Options := {}) : Except LintError Report :=
  (lint source options).map LintRun.report

end TemplateLint
