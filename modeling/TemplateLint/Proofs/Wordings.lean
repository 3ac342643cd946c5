import TemplateLint.Lint.BuiltinRules

/-!
# What findings say

The wording of a finding can have holes, and a hole without a value is an error. The built-in rules
give every hole its value, so each of their findings is made, and its message is known:
`OpeningTag.unclosed`, `ClosingTag.unopened`, `Marker.unguarded` and `repetition` are the findings
with holes, written out.

`Message.Filled` says what a wording becomes, part by part: a part without holes stays as it is, and
a hole becomes its value.
-/

namespace TemplateLint

open TemplateLint.Markup TemplateLint.Text

/-! ### Filling wordings -/

namespace Message

/-- A text without holes. -/
def spelled (text : String) : List Piece :=
  text.toList.map .literal

/-- Filled with `fields`, which leave no hole open, the parts are a text. -/
structure Filled (fields : Fields) (parts : List Piece) (text : String) : Prop where
  complete : missing? fields parts = none
  spells : parts.flatMap (Piece.fill fields) = text.toList

theorem missing?_append (fields : Fields) (parts others : List Piece) :
    missing? fields (parts ++ others) =
      (missing? fields parts).or (missing? fields others) := by
  induction parts with
  | nil => rfl
  | cons part parts ih =>
    cases part with
    | literal c => exact ih
    | hole name =>
      rw [List.cons_append, missing?, missing?]
      split
      · exact ih
      · rfl

namespace Filled

variable {fields : Fields} {parts others : List Piece} {text other : String}

private theorem spelled (fields : Fields) (text : String) : Filled fields (spelled text) text := by
  unfold Message.spelled
  constructor
  · induction text.toList with
    | nil => rfl
    | cons c text ih => exact ih
  · rw [List.flatMap_map]
    exact List.flatMap_singleton' _

theorem hole {name : String} {value : FieldValue} (h : fields.lookup name = some value) :
    Filled fields [.hole name] value.display := by
  constructor
  · simp [missing?, h]
  · simp [Piece.fill, h]

theorem append (h : Filled fields parts text) (h' : Filled fields others other) :
    Filled fields (parts ++ others) (text ++ other) := by
  constructor
  · rw [missing?_append, h.complete, h'.complete]
    rfl
  · rw [List.flatMap_append, h.spells, h'.spells, String.toList_append]

theorem format_eq_ok {wording : String} (h : Filled fields parts text)
    (hparts : pieces wording.toList = parts) : format wording fields = .ok text := by
  have hfill : fill fields parts = text := by rw [fill, h.spells, String.ofList_toList]
  simp only [format, hparts, h.complete, hfill]

end Filled

end Message

/-! ### Findings of catalogue entries -/

/-- The finding of a catalogue entry with a message and a place. -/
def Spec.worded (spec : Spec) (message : String) (span : Option Span) : Diagnostic :=
  { code := spec.code
    message
    span
    severity := spec.severity
    hint := spec.hint
    category := some spec.category }

theorem finding_nil (spec : Spec) (span : Option Span) :
    finding spec span [] = .ok (spec.worded spec.message span) := rfl

private theorem finding_of_filled {spec : Spec} {fields : Fields} {parts : List Message.Piece}
    {message : String} (hparts : Message.pieces spec.message.toList = parts)
    (hfields : fields.isEmpty = false) (hfilled : Message.Filled fields parts message)
    (span : Option Span) : finding spec span fields = .ok (spec.worded message span) := by
  simp only [finding, Diagnostic.ofSpec, hfields, hfilled.format_eq_ok hparts]
  rfl

/-- The wordings for tags ask for the name of the tag and for its offset. -/
private theorem finding_tag {spec : Spec} {opening : String}
    (hparts : Message.pieces spec.message.toList =
      Message.spelled opening ++ [.hole "name"] ++ Message.spelled "\x7d\x7d\" at position " ++
        [.hole "position"])
    (name : List Char) (start : Nat) (span : Option Span) :
    finding spec span (Rule.tagFields name start) =
      .ok (spec.worded
        (opening ++ String.ofList name ++ "\x7d\x7d\" at position " ++ toString start) span) := by
  have hname : (Rule.tagFields name start).lookup "name" = some (.text (String.ofList name)) := rfl
  have hposition : (Rule.tagFields name start).lookup "position" = some (.number start) := rfl
  have hfilled := (((Message.Filled.spelled _ opening).append (.hole hname)).append
    (.spelled _ "\x7d\x7d\" at position ")).append (.hole hposition)
  exact finding_of_filled hparts rfl hfilled span

/-- The finding that an opening tag has no closing tag. -/
def Markup.OpeningTag.unclosed (tag : OpeningTag) : Diagnostic :=
  Catalogue.unmatchedTag.worded
    ("Unclosed tag \"\x7b\x7b#" ++ String.ofList tag.name ++ "\x7d\x7d\" at position " ++
      toString tag.start)
    (some tag.span)

theorem finding_unmatchedTag (tag : OpeningTag) :
    finding Catalogue.unmatchedTag (some tag.span) (Rule.tagFields tag.name tag.start) =
      .ok tag.unclosed :=
  finding_tag (by decide +kernel) tag.name tag.start (some tag.span)

/-- The finding that a closing tag has no opening tag. -/
def Markup.ClosingTag.unopened (tag : ClosingTag) : Diagnostic :=
  Catalogue.unmatchedClosingTag.worded
    ("Unmatched closing tag \"\x7b\x7b/" ++ String.ofList tag.name ++ "\x7d\x7d\" at position " ++
      toString tag.start)
    (some tag.span)

theorem finding_unmatchedClosingTag (tag : ClosingTag) :
    finding Catalogue.unmatchedClosingTag (some tag.span) (Rule.tagFields tag.name tag.start) =
      .ok tag.unopened :=
  finding_tag (by decide +kernel) tag.name tag.start (some tag.span)

/-- The finding that a property access has no guard. -/
def Markup.Marker.unguarded (m : Marker) : Diagnostic :=
  Catalogue.nilCheck.worded
    ("Consider adding nil check for expression: " ++ String.ofList m.text) (some m.span)

theorem finding_nilCheck (m : Marker) :
    finding Catalogue.nilCheck (some m.span) [("expression", .text (String.ofList m.text))] =
      .ok m.unguarded := by
  have hparts : Message.pieces Catalogue.nilCheck.message.toList =
      Message.spelled "Consider adding nil check for expression: " ++ [.hole "expression"] := by
    decide +kernel
  have hexpression : List.lookup "expression"
      [("expression", FieldValue.text (String.ofList m.text))] =
        some (.text (String.ofList m.text)) := rfl
  exact finding_of_filled hparts rfl ((Message.Filled.spelled _ _).append (.hole hexpression)) _

/-- The finding that an expression occurs too often. -/
def repetition (expression : List Char) (count : Nat) : Diagnostic :=
  Catalogue.repeatedExpression.worded
    ("Complex expression used " ++ toString count ++ " times: " ++ String.ofList expression ++
      ". Consider using a variable.")
    none

theorem finding_repeatedExpression (expression : List Char) (count : Nat) :
    finding Catalogue.repeatedExpression none
      [("count", .number count), ("expression", .text (String.ofList expression))] =
        .ok (repetition expression count) := by
  have hparts : Message.pieces Catalogue.repeatedExpression.message.toList =
      Message.spelled "Complex expression used " ++ [.hole "count"] ++
        Message.spelled " times: " ++ [.hole "expression"] ++
          Message.spelled ". Consider using a variable." := by
    decide +kernel
  have hcount : List.lookup "count" [("count", FieldValue.number count),
      ("expression", .text (String.ofList expression))] = some (.number count) := rfl
  have hexpression : List.lookup "expression" [("count", FieldValue.number count),
      ("expression", .text (String.ofList expression))] =
        some (.text (String.ofList expression)) := rfl
  have hfilled := ((((Message.Filled.spelled _ "Complex expression used ").append
    (.hole hcount)).append (.spelled _ " times: ")).append (.hole hexpression)).append
      (.spelled _ ". Consider using a variable.")
  exact finding_of_filled hparts rfl hfilled none

end TemplateLint
