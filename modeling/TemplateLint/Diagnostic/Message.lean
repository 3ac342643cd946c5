/-!
# Messages with holes

The wording of a finding may have holes: a name between single braces stands for a value, and a
brace that is meant literally is doubled. `Message.pieces` reads such a wording, `Message.missing?`
is the first hole for which no value is given, and `Message.fill` puts values in. A value is put in
as it is, so braces in it mean nothing, and values for which there is no hole are not used.
-/

namespace TemplateLint

/-- A value that can stand in a hole of a message. -/
inductive FieldValue where
  | text (value : String)
  | number (value : Int)
  deriving DecidableEq

/-- How a value is written in a message. -/
def FieldValue.display : FieldValue → String
  | .text value => value
  | .number value => toString value

/-- Values by the name of the hole they are for. -/
abbrev Fields := List (String × FieldValue)

namespace Message

/-- A part of a message. -/
inductive Piece where
  /-- A character that stands for itself. -/
  | literal (c : Char)
  /-- A hole to be filled. -/
  | hole (name : String)
  deriving DecidableEq

/-- The parts of a wording. A brace that is neither doubled nor around a name stands for itself. -/
def pieces : List Char → List Piece
  | [] => []
  | '{' :: '{' :: rest => .literal '{' :: pieces rest
  | '}' :: '}' :: rest => .literal '}' :: pieces rest
  | '{' :: rest =>
    match _h : rest.dropWhile (· != '}') with
    | [] => .literal '{' :: pieces rest
    | _ :: later => .hole (String.ofList (rest.takeWhile (· != '}'))) :: pieces later
  | c :: rest => .literal c :: pieces rest
termination_by text => text.length
decreasing_by
  all_goals simp only [List.length_cons]
  · omega
  · omega
  · omega
  · have hdrop := (List.dropWhile_suffix (l := rest) (· != '}')).length_le
    rw [_h] at hdrop
    simp only [List.length_cons] at hdrop
    omega
  · omega

/-- The first hole, from left to right, for which there is no value. -/
def missing? (fields : Fields) : List Piece → Option String
  | [] => none
  | .literal _ :: rest => missing? fields rest
  | .hole name :: rest =>
    if (fields.lookup name).isSome then missing? fields rest else some name

/-- The text of one part. A hole without a value is left empty. -/
def Piece.fill (fields : Fields) : Piece → List Char
  | .literal c => [c]
  | .hole name => ((fields.lookup name).map fun value => value.display.toList).getD []

/-- The message with its holes filled. -/
def fill (fields : Fields) (parts : List Piece) : String :=
  String.ofList (parts.flatMap (Piece.fill fields))

/-- The wording with its holes filled, or the first hole that has no value. -/
def format (wording : String) (fields : Fields) : Except String String :=
  let parts := pieces wording.toList
  match missing? fields parts with
  | some name => .error name
  | none => .ok (fill fields parts)

end Message

end TemplateLint
