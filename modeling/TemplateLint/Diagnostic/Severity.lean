/-!
# Severities and passes

A finding is an error, a warning or a suggestion, and belongs to one of three passes, which run in
a fixed order. Rules that come from outside may name any severity or pass, so diagnostics carry
labels, and `ofLabel?` says which labels mean something.
-/

namespace TemplateLint

/-- How serious a finding is. -/
inductive Severity where
  | error
  | warning
  | suggestion
  deriving DecidableEq

namespace Severity

/-- The severities, most serious first. -/
def all : List Severity := [.error, .warning, .suggestion]

/-- How a severity is written. -/
def label : Severity → String
  | .error => "error"
  | .warning => "warning"
  | .suggestion => "suggestion"

/-- The severity that a label names. -/
def ofLabel? (text : String) : Option Severity :=
  all.find? fun severity => severity.label == text

@[simp] theorem ofLabel?_label (severity : Severity) :
    ofLabel? severity.label = some severity := by
  cases severity <;> rfl

theorem label_of_ofLabel? {text : String} {severity : Severity}
    (h : ofLabel? text = some severity) : severity.label = text := by
  simpa using List.find?_some h

end Severity

/-- Which pass of the linter a rule belongs to. -/
inductive Pass where
  /-- Tags, expressions and braces that are not well formed. -/
  | markup
  /-- Habits that make templates safer and more accessible. -/
  | convention
  /-- Constructions that are slow on large data. -/
  | performance
  deriving DecidableEq

namespace Pass

/-- The passes in the order in which they run. -/
def all : List Pass := [.markup, .convention, .performance]

/-- How a pass is written. -/
def label : Pass → String
  | .markup => "syntax"
  | .convention => "convention"
  | .performance => "performance"

/-- The pass that a label names. -/
def ofLabel? (text : String) : Option Pass :=
  all.find? fun stage => stage.label == text

@[simp] theorem ofLabel?_label (stage : Pass) : ofLabel? stage.label = some stage := by
  cases stage <;> rfl

theorem label_of_ofLabel? {text : String} {stage : Pass} (h : ofLabel? text = some stage) :
    stage.label = text := by
  simpa using List.find?_some h

end Pass

end TemplateLint
