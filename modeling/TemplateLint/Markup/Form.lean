import TemplateLint.Markup.Marker

/-!
# Forms

A template holds a form if it holds a form block, which is the head of a form with the closing tag
of any form somewhere after it, or a self-closing form.
-/

namespace TemplateLint.Markup

open TemplateLint.Text

/-- Whether the head of a form stands before the closing tag of a form. The first head leaves the
most text after it, so no later one has to be tried. -/
def hasFormBlock (source : List Char) : Bool :=
  match Head.form.pattern.find? 0 source with
  | none => false
  | some o => formClosingTag.matchesIn o.rest

/-- Whether some form closes itself: a slash stands before its first closing brace. -/
def hasSelfClosingForm (source : List Char) : Bool :=
  (MarkerForm.markers ⟨.wholeForm, ['}'], false⟩ source).any fun m => ['/'].isSuffixOf m.body

/-- Whether the template holds a form of either kind. -/
def hasForm (source : List Char) : Bool :=
  hasFormBlock source || hasSelfClosingForm source

end TemplateLint.Markup
