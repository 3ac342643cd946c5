/-!
# Balance of braces

Every brace of the template counts, wherever it stands. The depth is the number of opening braces
so far less the number of closing ones; it may fall below zero and is never reset.
-/

namespace TemplateLint.Markup

/-- The depth of braces after one more character. -/
def stepDepth (depth : Int) (c : Char) : Int :=
  if c = '{' then depth + 1 else if c = '}' then depth - 1 else depth

/-- The depth of braces after a text. -/
def braceDepth (text : List Char) : Int :=
  text.foldl stepDepth 0

/-- The offsets of the closing braces that leave the depth below zero, for a text that begins at
offset `pos` and depth `depth`. -/
def excessClosersFrom (pos : Nat) (depth : Int) : List Char → List Nat
  | [] => []
  | c :: text =>
    let later := excessClosersFrom (pos + 1) (stepDepth depth c) text
    if c = '}' ∧ stepDepth depth c < 0 then pos :: later else later

/-- The offsets of the closing braces at which more braces have been closed than opened. -/
def excessClosers (source : List Char) : List Nat :=
  excessClosersFrom 0 0 source

/-- Whether a brace is still open at the end of the template. -/
def endsOpen (source : List Char) : Bool :=
  decide (0 < braceDepth source)

@[simp] theorem braceDepth_nil : braceDepth [] = 0 := rfl

end TemplateLint.Markup
