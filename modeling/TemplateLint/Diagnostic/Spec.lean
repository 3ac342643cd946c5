import TemplateLint.Diagnostic.Message
import TemplateLint.Diagnostic.Severity
import TemplateLint.Text.Span

/-!
# Diagnostics and their specifications

A `Spec` is an entry of the catalogue of findings: a code, a wording, a hint, and the severity and
pass that its findings have. A `Diagnostic` is one finding in a template. `Diagnostic.ofSpec`
makes the one from the other; without values the wording stays exactly as the catalogue has it.
-/

namespace TemplateLint

open TemplateLint.Text

/-- An entry of the catalogue of findings. -/
structure Spec where
  code : String
  /-- The wording, with its holes. -/
  message : String
  /-- How to mend what was found. -/
  hint : Option String := none
  /-- Label of the severity. -/
  severity : String := Severity.error.label
  /-- Label of the pass. -/
  category : String := Pass.markup.label
  deriving DecidableEq

/-- One finding in a template. Findings without a single place in it have no span. -/
structure Diagnostic where
  code : String
  message : String
  span : Option Span := none
  /-- Label of the severity. -/
  severity : String := Severity.error.label
  /-- How to mend what was found. -/
  hint : Option String := none
  /-- Label of the pass. -/
  category : Option String := none
  deriving DecidableEq

/-- A hole of a wording for which no value was given. -/
structure MissingField where
  name : String
  deriving DecidableEq

namespace Diagnostic

/-- The offset at which the finding stands. -/
def position (d : Diagnostic) : Option Nat :=
  d.span.map Span.start

/-- A finding of a catalogue entry. The values of its holes are handed over by name, beside the
entry as `spec` and the place as `range`, so that no field can have one of these two names. -/
def ofSpec (spec : Spec) (span : Option Span) (fields : Fields) :
    Except MissingField Diagnostic :=
  let filled := if fields.isEmpty then .ok spec.message else Message.format spec.message fields
  match filled with
  | .error name => .error ⟨name⟩
  | .ok message =>
    .ok
      { code := spec.code
        message
        span
        severity := spec.severity
        hint := spec.hint
        category := some spec.category }

end Diagnostic

end TemplateLint
