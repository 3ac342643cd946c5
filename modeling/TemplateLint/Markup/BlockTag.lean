import TemplateLint.Markup.Expression

/-!
# Block tags

An opening tag is two braces, a hash and a name, and runs up to the first two closing braces that
follow. It is self-closing when it ends in a slash and two braces, and then wants no closing tag.
Tags are paired by name alone and not by nesting: a tag is unpaired when no tag of the other kind
anywhere in the template has its name.
-/

namespace TemplateLint.Markup

open TemplateLint.Text

/-- An opening block tag. -/
structure OpeningTag where
  /-- Offset of its first brace. -/
  start : Nat
  /-- The name after the hash. -/
  name : List Char
  /-- What stands between the name and the closing braces. -/
  content : List Char
  deriving DecidableEq

namespace OpeningTag

/-- Offset just after the name. -/
def headStop (tag : OpeningTag) : Nat :=
  tag.start + 3 + tag.name.length

/-- The tag's source text. -/
def text (tag : OpeningTag) : List Char :=
  ['{', '{', '#'] ++ tag.name ++ tag.content ++ closingBraces

/-- The characters of the tag. -/
def span (tag : OpeningTag) : Span :=
  Span.ofLength tag.start tag.text.length

/-- Whether the tag closes itself. -/
def isSelfClosing (tag : OpeningTag) : Bool :=
  occursIn ['/', '}', '}'] tag.text

end OpeningTag

/-- A closing block tag. -/
structure ClosingTag where
  /-- Offset of its first brace. -/
  start : Nat
  /-- The name after the slash. -/
  name : List Char
  deriving DecidableEq

namespace ClosingTag

/-- The tag's source text. -/
def text (tag : ClosingTag) : List Char :=
  ['{', '{', '/'] ++ tag.name ++ closingBraces

/-- The characters of the tag. -/
def span (tag : ClosingTag) : Span :=
  Span.ofLength tag.start tag.text.length

/-- The characters of the tag's name. -/
def nameSpan (tag : ClosingTag) : Span :=
  Span.ofLength (tag.start + 3) tag.name.length

end ClosingTag

/-- The name in a text that begins with two braces and a mark. -/
def tagName (matched : List Char) : List Char :=
  (matched.drop 3).takeWhile isWord

/-- The opening tags in `text`, whose first character stands at offset `pos`. -/
def openingTagsFrom (pos : Nat) (text : List Char) : List OpeningTag :=
  match _h : Head.openTag.pattern.find? pos text with
  | none => []
  | some o =>
    match _hclose : splitFirst? closingBraces o.rest with
    | none => []
    | some (content, later) =>
      ⟨o.start, tagName o.matched, content⟩ ::
        openingTagsFrom (o.stop + content.length + closingBraces.length) later
termination_by text.length
decreasing_by
  have hrest := Pattern.length_rest_lt _h
  have hsplit := congrArg List.length (append_of_splitFirst? _hclose)
  simp only [List.length_append] at hsplit
  omega

/-- The opening tags of a template, self-closing ones included. -/
def openingTags (source : List Char) : List OpeningTag :=
  openingTagsFrom 0 source

/-- The opening tags that want a closing tag. -/
def blockOpeners (source : List Char) : List OpeningTag :=
  (openingTags source).filter fun tag => !tag.isSelfClosing

/-- The closing tags of a template. -/
def closingTags (source : List Char) : List ClosingTag :=
  (closingTag.findAll 0 source).map fun o => ⟨o.start, tagName o.matched⟩

/-- The first closing tag of a template. -/
def firstClosingTag? (source : List Char) : Option ClosingTag :=
  (closingTag.find? 0 source).map fun o => ⟨o.start, tagName o.matched⟩

/-! ### Pairing by name -/

/-- The opening tags whose name no closing tag has. -/
def unclosedTags (source : List Char) : List OpeningTag :=
  let closed := (closingTags source).map ClosingTag.name
  (blockOpeners source).filter fun tag => !closed.contains tag.name

/-- The closing tags whose name no opening tag has. -/
def unopenedTags (source : List Char) : List ClosingTag :=
  let opened := (blockOpeners source).map OpeningTag.name
  (closingTags source).filter fun tag => !opened.contains tag.name

end TemplateLint.Markup
