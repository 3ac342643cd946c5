import TemplateLint.Lint.Rule
import TemplateLint.Markup.BlockTag
import TemplateLint.Markup.Brace
import TemplateLint.Markup.Form
import TemplateLint.Markup.Loop

/-!
# The built-in rules

Ten rules in three passes. Each asks one question about the template and words the answer with an
entry of the catalogue.

* **Markup**: block tags are paired by name, expressions are not blank, braces balance.
* **Convention**: there is a form, property accesses are guarded, raw output is the exception,
  images have alternative text.
* **Performance**: loops do not nest, whole collections are not asked for, long expressions are
  not repeated.
-/

namespace TemplateLint

open TemplateLint.Markup TemplateLint.Text

/-- A finding of a catalogue entry, made by a rule. -/
def finding (spec : Spec) (span : Option Span) (fields : Fields) : Except RuleError Diagnostic :=
  (Diagnostic.ofSpec spec span fields).mapError .field

/-- The single finding of an entry without holes or place, made when `holds`. -/
def findingWhen (holds : Bool) (spec : Spec) : Except RuleError (List Diagnostic) :=
  if holds then do return [← finding spec none []] else .ok []

namespace Rule

/-! ### Markup -/

/-- The values that the wordings for a tag ask for. -/
def tagFields (name : List Char) (start : Nat) : Fields :=
  [("name", .text (String.ofList name)), ("position", .number start)]

/-- Block tags without a counterpart of the same name anywhere in the template: opening tags
first, then closing tags. -/
def unmatchedTag : Rule where
  name := "unmatchedTag"
  code := Kind.unmatchedTag.code
  category := Pass.markup.label
  check _ source := do
    let unclosed ← (unclosedTags source).mapM fun tag =>
      finding Catalogue.unmatchedTag (some tag.span) (tagFields tag.name tag.start)
    let unopened ← (unopenedTags source).mapM fun tag =>
      finding Catalogue.unmatchedClosingTag (some tag.span) (tagFields tag.name tag.start)
    return unclosed ++ unopened

/-- Expressions with nothing but blanks between their braces. -/
def emptyExpression : Rule where
  name := "emptyExpression"
  code := Kind.emptyExpression.code
  category := Pass.markup.label
  check _ source :=
    (blankExpressions source).mapM fun m => finding Catalogue.emptyExpression (some m.span) []

/-- Every closing brace that exceeds the opening ones before it, and then, once and without a
place, braces left open at the end. -/
def unbalancedBraces : Rule where
  name := "unbalancedBraces"
  code := Kind.unmatchedBrackets.code
  category := Pass.markup.label
  check _ source := do
    let closing ← (excessClosers source).mapM fun offset =>
      finding Catalogue.unmatchedClosingBrackets (some (Span.ofLength offset 1)) []
    let opening ← findingWhen (endsOpen source) Catalogue.unmatchedOpeningBrackets
    return closing ++ opening

/-! ### Convention -/

/-- A template without any form. -/
def noForms : Rule where
  name := "noForms"
  code := Kind.noForms.code
  category := Pass.convention.label
  check _ source := findingWhen (!hasForm source) Catalogue.noForms

/-- Whether a guard stands in the window around a marker. -/
def isGuarded (options : Options) (source : List Char) (limit : Nat) (m : Marker) :
    Except SpanError Bool := do
  let window ← m.span.widen options.contextWindow limit
  let context := window.slice source
  return options.guardTokens.any fun token => occursIn token.toList context

/-- Property accesses without a guard near them. A guard counts wherever it stands in the window,
whether or not it governs the access. -/
def nilCheck : Rule where
  name := "nilCheck"
  code := Kind.nilCheck.code
  category := Pass.convention.label
  check options source := do
    let limit := source.length
    let unguarded ← (propertyAccesses source).filterM fun m =>
      ((!·) <$> isGuarded options source limit m).mapError .span
    unguarded.mapM fun m =>
      finding Catalogue.nilCheck (some m.span)
        [("expression", .text (String.ofList m.text))]

/-- More raw outputs than escaped ones. -/
def excessiveRawOutput : Rule where
  name := "excessiveRawOutput"
  code := Kind.excessiveRawOutput.code
  category := Pass.convention.label
  check _ source :=
    findingWhen (decide (escapedCount source < rawCount source)) Catalogue.excessiveRawOutput

/-- Images in a template that has no alternative text anywhere. -/
def missingAltText : Rule where
  name := "missingAltText"
  code := Kind.missingAltText.code
  category := Pass.convention.label
  check _ source :=
    findingWhen (occursIn "<img".toList source && !occursIn "alt=".toList source)
      Catalogue.missingAltText

/-! ### Performance -/

/-- Two loops one inside the other. -/
def nestedLoops : Rule where
  name := "nestedLoops"
  code := Kind.nestedLoops.code
  category := Pass.performance.label
  check _ source :=
    (nestedLoop? source).toList.mapM fun span => finding Catalogue.nestedLoops (some span) []

/-- Whole collections asked for or measured. -/
def dataOptimization : Rule where
  name := "dataOptimization"
  code := Kind.dataOptimization.code
  category := Pass.performance.label
  check options source :=
    findingWhen
      ((options.largeCollectionMarkers ++ options.quantifierMarkers).any fun marker =>
        occursIn marker.toList source)
      Catalogue.dataOptimization

/-- Long expressions used more often than the options allow, in the order in which they first
occur. -/
def repeatedExpression : Rule where
  name := "repeatedExpression"
  code := Kind.repeatedExpression.code
  category := Pass.performance.label
  check options source :=
    let repeated := (tally source).filter fun (expression, count) =>
      decide (options.repeatCount < count) && decide (options.repeatLength < expression.length)
    repeated.mapM fun (expression, count) =>
      finding Catalogue.repeatedExpression none
        [("count", .number count), ("expression", .text (String.ofList expression))]

/-! ### Sets of rules -/

/-- The rules of the first pass. -/
def markupRules : List Rule := [unmatchedTag, emptyExpression, unbalancedBraces]

/-- The rules of the second pass. -/
def conventionRules : List Rule := [noForms, nilCheck, excessiveRawOutput, missingAltText]

/-- The rules of the third pass. -/
def performanceRules : List Rule := [nestedLoops, dataOptimization, repeatedExpression]

/-- All built-in rules. -/
def defaults : List Rule := markupRules ++ conventionRules ++ performanceRules

/-- The built-in rule of a name. -/
def ofName? (name : String) : Option Rule :=
  defaults.find? fun rule => rule.name == name

end Rule

end TemplateLint
