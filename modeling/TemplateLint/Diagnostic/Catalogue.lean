import TemplateLint.Diagnostic.Spec

/-!
# The catalogue of findings

The catalogue lists every finding the linter knows. Two codes have two wordings each; a code has
one severity and one pass all the same. `Catalogue.index` keeps the first entry of each code and
refuses a list in which a code would have two severities or passes, and `index_specs` says that
the catalogue is such an index.

`Kind` enumerates the codes themselves, in the order in which they are listed to a reader.
-/

namespace TemplateLint

namespace Catalogue

def unmatchedTag : Spec where
  code := "unmatched_tag"
  message := "Unclosed tag \"\x7b\x7b\x7b\x7b#\x7bname\x7d\x7d\x7d\x7d\x7d\" at position \x7bposition\x7d"
  hint := some "Add the matching closing tag or make the tag self-closing with `/\x7d\x7d`."

def unmatchedClosingTag : Spec where
  code := "unmatched_tag"
  message := "Unmatched closing tag \"\x7b\x7b\x7b\x7b/\x7bname\x7d\x7d\x7d\x7d\x7d\" at position \x7bposition\x7d"
  hint := some "Remove the closing tag or add the opening block it belongs to."

def emptyExpression : Spec where
  code := "empty_expression"
  message := "Empty Sline expression"
  hint := some "Remove the braces or put an expression between them."

def unmatchedClosingBrackets : Spec where
  code := "unmatched_brackets"
  message := "Unmatched closing brackets"

def unmatchedOpeningBrackets : Spec where
  code := "unmatched_brackets"
  message := "Unmatched opening brackets"

def noForms : Spec where
  code := "no_forms"
  message := "No forms detected. Consider adding contact, login, or registration forms."
  severity := Severity.warning.label
  category := Pass.convention.label

def nilCheck : Spec where
  code := "nil_check"
  message := "Consider adding nil check for expression: \x7bexpression\x7d"
  hint := some "Wrap the access in `\x7b\x7b#if ...\x7d\x7d` or `\x7b\x7b#unless ...\x7d\x7d`."
  severity := Severity.suggestion.label
  category := Pass.convention.label

def excessiveRawOutput : Spec where
  code := "excessive_raw_output"
  message := "Using triple braces extensively. Ensure user content is properly escaped."
  severity := Severity.warning.label
  category := Pass.convention.label

def missingAltText : Spec where
  code := "missing_alt_text"
  message := "Images detected without alt attributes - accessibility issue"
  hint := some "Describe each image with an `alt=\"...\"` attribute."
  severity := Severity.warning.label
  category := Pass.convention.label

def nestedLoops : Spec where
  code := "nested_loops"
  message := "Deep loop nesting detected. Consider optimizing data structure."
  severity := Severity.warning.label
  category := Pass.performance.label

def dataOptimization : Spec where
  code := "data_optimization"
  message := "Consider paginating large datasets for better performance"
  severity := Severity.suggestion.label
  category := Pass.performance.label

def repeatedExpression : Spec where
  code := "repeated_expression"
  message := "Complex expression used \x7bcount\x7d times: \x7bexpression\x7d. Consider using a variable."
  severity := Severity.suggestion.label
  category := Pass.performance.label

/-- Every entry, with both wordings of a code that has two. -/
def specs : List Spec :=
  [unmatchedTag, unmatchedClosingTag, emptyExpression, unmatchedClosingBrackets,
    unmatchedOpeningBrackets, noForms, nilCheck, excessiveRawOutput, missingAltText, nestedLoops,
    dataOptimization, repeatedExpression]

/-- The first entry of each code. -/
def primarySpecs : List Spec :=
  [unmatchedTag, emptyExpression, unmatchedClosingBrackets, noForms, nilCheck,
    excessiveRawOutput, missingAltText, nestedLoops, dataOptimization, repeatedExpression]

/-! ### One entry per code -/

/-- A code that two entries put under different severities or passes. -/
structure Conflict where
  code : String
  deriving DecidableEq

/-- The wording of a conflict. -/
def Conflict.message (conflict : Conflict) : String :=
  "Diagnostic code `" ++ conflict.code ++ "` maps to more than one severity/category"

/-- The entries `kept` so far and the first entry of every further code. -/
def indexOnto (kept : List Spec) : List Spec → Except Conflict (List Spec)
  | [] => .ok kept
  | spec :: rest =>
    match kept.find? fun first => first.code == spec.code with
    | none => indexOnto (kept ++ [spec]) rest
    | some first =>
      if first.severity = spec.severity ∧ first.category = spec.category then indexOnto kept rest
      else .error ⟨spec.code⟩

/-- The first entry of each code, in the order of the list. -/
def index (entries : List Spec) : Except Conflict (List Spec) :=
  indexOnto [] entries

/-- The catalogue gives each code one severity and one pass. -/
theorem index_specs : index specs = .ok primarySpecs := by rfl

/-! ### Looking a code up -/

/-- A code that the catalogue does not have. -/
structure UnknownCode where
  code : String
  deriving DecidableEq

/-- The wording for an unknown code. -/
def UnknownCode.message (unknown : UnknownCode) : String :=
  "Unknown diagnostic code `" ++ unknown.code ++ "`"

/-- The first entry of a code. -/
def find? (code : String) : Option Spec :=
  primarySpecs.find? fun spec => spec.code == code

/-- The first entry of a code, or the complaint that there is none. -/
def lookup (code : String) : Except UnknownCode Spec :=
  match find? code with
  | some spec => .ok spec
  | none => .error ⟨code⟩

theorem code_of_find? {code : String} {spec : Spec} (h : find? code = some spec) :
    spec.code = code := by
  simpa using List.find?_some h

end Catalogue

/-- A code of the catalogue. -/
inductive Kind where
  | dataOptimization
  | emptyExpression
  | excessiveRawOutput
  | missingAltText
  | nestedLoops
  | nilCheck
  | noForms
  | repeatedExpression
  | unmatchedBrackets
  | unmatchedTag
  deriving DecidableEq

namespace Kind

/-- Every code, in the order of their written forms. -/
def all : List Kind :=
  [.dataOptimization, .emptyExpression, .excessiveRawOutput, .missingAltText, .nestedLoops,
    .nilCheck, .noForms, .repeatedExpression, .unmatchedBrackets, .unmatchedTag]

/-- The catalogue's first entry of a code. -/
def spec : Kind → Spec
  | .dataOptimization => Catalogue.dataOptimization
  | .emptyExpression => Catalogue.emptyExpression
  | .excessiveRawOutput => Catalogue.excessiveRawOutput
  | .missingAltText => Catalogue.missingAltText
  | .nestedLoops => Catalogue.nestedLoops
  | .nilCheck => Catalogue.nilCheck
  | .noForms => Catalogue.noForms
  | .repeatedExpression => Catalogue.repeatedExpression
  | .unmatchedBrackets => Catalogue.unmatchedClosingBrackets
  | .unmatchedTag => Catalogue.unmatchedTag

/-- How a code is written. -/
def code (kind : Kind) : String :=
  kind.spec.code

/-- The code that a text writes. -/
def ofCode? (text : String) : Option Kind :=
  all.find? fun kind => kind.code == text

theorem mem_all (kind : Kind) : kind ∈ all := by
  cases kind <;> decide

@[simp] theorem ofCode?_code (kind : Kind) : ofCode? kind.code = some kind := by
  cases kind <;> decide +kernel

theorem code_of_ofCode? {text : String} {kind : Kind} (h : ofCode? text = some kind) :
    kind.code = text := by
  simpa using List.find?_some h

/-- The catalogue knows every code under its written form. -/
theorem find?_code (kind : Kind) : Catalogue.find? kind.code = some kind.spec := by
  cases kind <;> decide +kernel

end Kind

end TemplateLint
