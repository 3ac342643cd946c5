import TemplateLint.Json.Basic
import TemplateLint.Text.Hex

/-!
# Printing JSON

Values are printed over several lines, each level two columns further in; an empty list or object
takes no lines of its own. A string is written in printable ASCII: quotes and backslashes are
escaped, five controls have short escapes, and every other character outside the range from the
space to the tilde is written by its UTF-16 units in four hexadecimal digits each.
-/

namespace TemplateLint.Json

open TemplateLint.Text

/-! ### Strings -/

/-- One UTF-16 unit as an escape. -/
def escapeUnit (n : Nat) : List Char :=
  '\\' :: 'u' :: hex 4 n

/-- A character as its UTF-16 units: itself, or a surrogate pair from the second plane on. -/
def utf16Units (c : Char) : List Nat :=
  if c.toNat < 0x10000 then [c.toNat]
  else [0xD800 + (c.toNat - 0x10000) / 0x400, 0xDC00 + (c.toNat - 0x10000) % 0x400]

/-- The controls that have a short escape, with its letter. -/
def shortEscapes : List (Char × Char) :=
  [('\n', 'n'), ('\r', 'r'), ('\t', 't'), ('\x0c', 'f'), ('\x08', 'b')]

/-- A character as it stands in a string. -/
def escapeChar (c : Char) : List Char :=
  if c = '"' ∨ c = '\\' then ['\\', c]
  else if 0x20 ≤ c.toNat ∧ c.toNat ≤ 0x7E then [c]
  else
    match shortEscapes.lookup c with
    | some letter => ['\\', letter]
    | none => (utf16Units c).flatMap escapeUnit

/-- A string between its quotes. -/
def printText (text : String) : List Char :=
  '"' :: text.toList.flatMap escapeChar ++ ['"']

/-! ### Values -/

/-- The end of a line, and the indentation of the next one at a depth. -/
def newline (depth : Nat) : List Char :=
  '\n' :: List.replicate (2 * depth) ' '

mutual

/-- A value at a depth. -/
def print (depth : Nat) : Json → List Char
  | .text value => printText value
  | .number value => (toString value).toList
  | .boolean true => "true".toList
  | .boolean false => "false".toList
  | .array [] => ['[', ']']
  | .array (item :: items) =>
    '[' :: newline (depth + 1) ++ print (depth + 1) item ++ printItems (depth + 1) items ++
      newline depth ++ [']']
  | .object [] => ['{', '}']
  | .object ((name, value) :: members) =>
    '{' :: newline (depth + 1) ++ printText name ++ [':', ' '] ++ print (depth + 1) value ++
      printMembers (depth + 1) members ++ newline depth ++ ['}']

/-- The items of a list after the first one. -/
def printItems (depth : Nat) : List Json → List Char
  | [] => []
  | item :: items => ',' :: newline depth ++ print depth item ++ printItems depth items

/-- The members of an object after the first one. -/
def printMembers (depth : Nat) : List (String × Json) → List Char
  | [] => []
  | (name, value) :: members =>
    ',' :: newline depth ++ printText name ++ [':', ' '] ++ print depth value ++
      printMembers depth members

end

/-- The printed form of a value. -/
def render (value : Json) : String :=
  String.ofList (print 0 value)

end TemplateLint.Json
