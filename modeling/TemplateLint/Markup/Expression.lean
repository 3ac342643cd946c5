import TemplateLint.Markup.Marker
import TemplateLint.Text.Blank

/-!
# Expressions

An expression is what stands between two opening and two closing braces. Some of them are of
special interest: property accesses, which follow a dot, raw outputs in triple braces, and blank
expressions. `tally` counts how often each expression occurs, up to the blanks around it.
-/

namespace TemplateLint.Markup

open TemplateLint.Text

/-- Two closing braces. -/
def closingBraces : List Char := ['}', '}']

/-- The expressions of a template. -/
def expressions (source : List Char) : List Marker :=
  MarkerForm.markers ⟨.expression, closingBraces, false⟩ source

/-- Whether a dot stands strictly inside the text, neither first nor last. -/
def hasInnerDot (body : List Char) : Bool :=
  (body.drop 1).dropLast.contains '.'

/-- The expressions that follow a chain of properties. -/
def propertyAccesses (source : List Char) : List Marker :=
  (MarkerForm.markers ⟨.expression, closingBraces, true⟩ source).filter fun m => hasInnerDot m.body

/-- The outputs in triple braces, which are not escaped. -/
def rawOutputs (source : List Char) : List Marker :=
  MarkerForm.markers ⟨.rawOutput, ['}', '}', '}'], true⟩ source

/-- How many outputs are raw. -/
def rawCount (source : List Char) : Nat :=
  (rawOutputs source).length

/-- How many outputs are escaped: each raw output is also one expression. -/
def escapedCount (source : List Char) : Int :=
  (expressions source).length - rawCount source

/-- The expressions with nothing but blanks between their braces. -/
def blankExpressions (source : List Char) : List Marker :=
  (expressions source).filter fun m => (trim m.body).isEmpty

/-! ### Counting expressions -/

/-- Texts with the number of times each was met, in the order in which they were first met. -/
abbrev Tally := List (List Char × Nat)

/-- The tally after `text` was met once more. -/
def Tally.add (text : List Char) : Tally → Tally
  | [] => [(text, 1)]
  | (known, count) :: later =>
    if known = text then (known, count + 1) :: later else (known, count) :: Tally.add text later

/-- How often each text occurs in a list. -/
def Tally.ofList (texts : List (List Char)) : Tally :=
  texts.foldl (fun counts text => counts.add text) []

/-- How often each expression occurs; expressions that differ only in the blanks around them are
the same. -/
def tally (source : List Char) : Tally :=
  Tally.ofList ((expressions source).map fun m => trim m.body)

end TemplateLint.Markup
