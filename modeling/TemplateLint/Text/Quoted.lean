import TemplateLint.Text.Hex
import TemplateLint.Text.Printable

/-!
# Quoted text

A text given back to the reader in a message stands between quotes: single ones, unless it holds
a single quote and no double one. The backslash, the quote itself, tabs and line ends have short
escapes, and every other character that does not print is written by its code point in two, four
or eight hexadecimal digits.
-/

namespace TemplateLint.Text

/-- The quote that needs the fewest escapes, the single one if both do. -/
def quoteMark (text : List Char) : Char :=
  if text.contains '\'' && !text.contains '"' then '"' else '\''

/-- The code point of a character in as many digits as its size calls for. -/
def escapePoint (n : Nat) : List Char :=
  if n < 0x100 then '\\' :: 'x' :: hex 2 n
  else if n < 0x10000 then '\\' :: 'u' :: hex 4 n
  else '\\' :: 'U' :: hex 8 n

/-- One character as it stands between two marks `quote`. -/
def escapeQuoted (quote c : Char) : List Char :=
  if c = quote ∨ c = '\\' then ['\\', c]
  else if c = '\t' then ['\\', 't']
  else if c = '\n' then ['\\', 'n']
  else if c = '\r' then ['\\', 'r']
  else if isPrintable c then [c]
  else escapePoint c.toNat

/-- The text between quotes. -/
def quoted (text : String) : String :=
  let quote := quoteMark text.toList
  String.ofList (quote :: text.toList.flatMap (escapeQuoted quote) ++ [quote])

end TemplateLint.Text
