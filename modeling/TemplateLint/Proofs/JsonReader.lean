import TemplateLint.Json.Basic

/-!
# Reading JSON

A reader for the part of JSON that `Json` can hold: there is no null, and numbers are natural. It
knows nothing of the printer. Blanks may stand between any two tokens, every escape of the standard
is understood, with hexadecimal digits of either case, and what the standard forbids is refused:
controls in strings, lone surrogates, zeros in front of a number, and commas after a last item.

Reading has two stages.

* `lex` cuts the input into tokens. A string is read in two steps of its own: `readCodes` undoes the
  escapes, which leaves code points and UTF-16 units, and `joinCodes` joins the surrogate pairs.
* `Reading.step` takes one token after the other. The values that have begun and not ended are kept
  on a stack, so no token is looked at twice and no bound on the depth is needed.
-/

namespace TemplateLint.Json

/-! ### Strings -/

/-- The value of a hexadecimal digit. -/
def hexValue? (c : Char) : Option Nat :=
  if '0' ≤ c ∧ c ≤ '9' then some (c.toNat - 0x30)
  else if 'a' ≤ c ∧ c ≤ 'f' then some (c.toNat - 0x57)
  else if 'A' ≤ c ∧ c ≤ 'F' then some (c.toNat - 0x37)
  else none

/-- The number that hexadecimal digits write after a number that is known. -/
def hexNumber? : (known : Nat) → List Char → Option Nat
  | known, [] => some known
  | known, c :: digits => (hexValue? c).bind fun value => hexNumber? (known * 16 + value) digits

/-- The letters of the escapes of one letter, with the characters they stand for. -/
def letterEscapes : List (Char × Char) :=
  [('"', '"'), ('\\', '\\'), ('/', '/'), ('b', '\x08'), ('f', '\x0c'), ('n', '\n'), ('r', '\r'),
    ('t', '\t')]

/-- What is read where one code comes first. -/
def consCode? (code? : Option Nat) (read : Option (List Nat × List Char)) :
    Option (List Nat × List Char) :=
  code?.bind fun code => read.map fun (codes, rest) => (code :: codes, rest)

/-- The codes of a string up to the quote that ends it, and what comes after the quote. A character
stands for its code point and an escape of four digits for its UTF-16 unit. -/
def readCodes : List Char → Option (List Nat × List Char)
  | [] => none
  | '"' :: rest => some ([], rest)
  | '\\' :: 'u' :: a :: b :: c :: d :: rest =>
    consCode? (hexNumber? 0 [a, b, c, d]) (readCodes rest)
  | '\\' :: letter :: rest =>
    consCode? ((letterEscapes.lookup letter).map Char.toNat) (readCodes rest)
  | c :: rest => consCode? (if c.toNat < 0x20 then none else some c.toNat) (readCodes rest)

/-- The text of some codes: each high surrogate has to be followed by a low one, and together they
are one character. -/
def joinCodes : List Nat → Option (List Char)
  | [] => some []
  | code :: rest =>
    if 0xD800 ≤ code ∧ code < 0xDC00 then
      match rest with
      | [] => none
      | low :: later =>
        if 0xDC00 ≤ low ∧ low < 0xE000 then
          (joinCodes later).map
            (Char.ofNat (0x10000 + (code - 0xD800) * 0x400 + (low - 0xDC00)) :: ·)
        else none
    else if 0xDC00 ≤ code ∧ code < 0xE000 then none
    else (joinCodes rest).map (Char.ofNat code :: ·)

/-! ### Tokens -/

/-- The words of JSON. -/
inductive Token where
  | text (value : String)
  | number (value : Nat)
  | boolean (value : Bool)
  | openArray
  | closeArray
  | openObject
  | closeObject
  | comma
  | colon

/-- The string that an input begins with, whose first quote has been read. -/
def readText (input : List Char) : Option (Token × List Char) :=
  (readCodes input).bind fun (codes, rest) =>
    (joinCodes codes).map fun text => (.text (String.ofList text), rest)

/-- The number that an input begins with. -/
def readNumber (input : List Char) : Option (Token × List Char) :=
  let digits := input.takeWhile Char.isDigit
  if digits = [] ∨ digits.head? = some '0' ∧ digits ≠ ['0'] then none
  else some (.number (Nat.ofDigitChars 10 digits 0), input.dropWhile Char.isDigit)

/-- The token that an input begins with. -/
def readToken : List Char → Option (Token × List Char)
  | '[' :: rest => some (.openArray, rest)
  | ']' :: rest => some (.closeArray, rest)
  | '{' :: rest => some (.openObject, rest)
  | '}' :: rest => some (.closeObject, rest)
  | ',' :: rest => some (.comma, rest)
  | ':' :: rest => some (.colon, rest)
  | '"' :: rest => readText rest
  | 't' :: 'r' :: 'u' :: 'e' :: rest => some (.boolean true, rest)
  | 'f' :: 'a' :: 'l' :: 's' :: 'e' :: rest => some (.boolean false, rest)
  | input => readNumber input

private theorem exists_of_consCode? {code? : Option Nat} {read : Option (List Nat × List Char)}
    {codes : List Nat} {rest : List Char} (h : consCode? code? read = some (codes, rest)) :
    ∃ later, read = some (later, rest) := by
  obtain ⟨code, -, h⟩ := Option.bind_eq_some_iff.mp h
  obtain ⟨⟨later, _⟩, hread, h⟩ := Option.map_eq_some_iff.mp h
  obtain ⟨-, rfl⟩ := Prod.mk.inj h
  exact ⟨later, hread⟩

private theorem length_lt_of_readCodes {input rest : List Char} {codes : List Nat}
    (h : readCodes input = some (codes, rest)) : rest.length < input.length := by
  fun_induction readCodes input generalizing codes with
  | case1 => cases h
  | case2 => cases h; simp
  | case3 a b c d later ih =>
    obtain ⟨_, hlater⟩ := exists_of_consCode? h
    exact Nat.lt_add_right 6 (ih hlater)
  | case4 letter later _ ih =>
    obtain ⟨_, hlater⟩ := exists_of_consCode? h
    exact Nat.lt_add_right 2 (ih hlater)
  | case5 c later _ _ _ ih =>
    obtain ⟨_, hlater⟩ := exists_of_consCode? h
    exact Nat.lt_add_right 1 (ih hlater)

private theorem length_lt_of_readNumber {input rest : List Char} {token : Token}
    (h : readNumber input = some (token, rest)) : rest.length < input.length := by
  rw [readNumber] at h
  split at h
  · cases h
  · next hdigits =>
    obtain ⟨-, rfl⟩ := Prod.mk.inj (Option.some.inj h)
    have hlength := congrArg List.length
      (List.takeWhile_append_dropWhile (p := Char.isDigit) (l := input))
    have hpos : 0 < (input.takeWhile Char.isDigit).length :=
      List.length_pos_iff.mpr fun hnil => hdigits (.inl hnil)
    rw [List.length_append] at hlength
    omega

private theorem length_lt_of_readToken {input rest : List Char} {token : Token}
    (h : readToken input = some (token, rest)) : rest.length < input.length := by
  unfold readToken at h
  split at h
  case h_7 later =>
    obtain ⟨⟨codes, _⟩, hcodes, h⟩ := Option.bind_eq_some_iff.mp h
    obtain ⟨_, -, h⟩ := Option.map_eq_some_iff.mp h
    obtain ⟨-, rfl⟩ := Prod.mk.inj h
    exact Nat.lt_succ_of_lt (length_lt_of_readCodes hcodes)
  case h_10 => exact length_lt_of_readNumber h
  all_goals
    obtain ⟨-, rfl⟩ := Prod.mk.inj (Option.some.inj h)
    simp only [List.length_cons]
    omega

/-- Whether a character may stand between two tokens. -/
def isWhitespace (c : Char) : Bool :=
  c == ' ' || c == '\t' || c == '\n' || c == '\r'

/-- The tokens of an input. -/
def lex : List Char → Option (List Token)
  | [] => some []
  | c :: rest =>
    if isWhitespace c then lex rest
    else
      match h : readToken (c :: rest) with
      | none => none
      | some (token, later) =>
        have := length_lt_of_readToken h
        (lex later).map (token :: ·)
termination_by input => input.length
decreasing_by
  · exact Nat.lt_succ_self rest.length
  · assumption

/-! ### Values -/

/-- A value that has begun and not ended. -/
inductive Frame where
  /-- A list, with the items that have been read. -/
  | array (items : List Json)
  /-- An object, with the members that have been read and the name of the next one. -/
  | object (members : List (String × Json)) (name : String)

/-- How far a value has been read. The values that it is part of come innermost first. -/
inductive Reading where
  /-- A value has to come, or the end of a list that has just begun. -/
  | value (stack : List Frame)
  /-- The name of a member has to come, or the end of an object that has just begun. -/
  | name (members : List (String × Json)) (stack : List Frame)
  /-- The colon after a name has to come. -/
  | colon (members : List (String × Json)) (name : String) (stack : List Frame)
  /-- A value is complete. -/
  | complete (value : Json) (stack : List Frame)

namespace Reading

/-- Takes one token. -/
def step : Reading → Token → Option Reading
  | value stack, .text word => some (complete (.text word) stack)
  | value stack, .number n => some (complete (.number n) stack)
  | value stack, .boolean b => some (complete (.boolean b) stack)
  | value stack, .openArray => some (value (.array [] :: stack))
  | value (.array [] :: stack), .closeArray => some (complete (.array []) stack)
  | value stack, .openObject => some (name [] stack)
  | name [] stack, .closeObject => some (complete (.object []) stack)
  | name members stack, .text word => some (colon members word stack)
  | colon members word stack, .colon => some (value (.object members word :: stack))
  | complete item (.array items :: stack), .comma =>
    some (value (.array (items ++ [item]) :: stack))
  | complete item (.array items :: stack), .closeArray =>
    some (complete (.array (items ++ [item])) stack)
  | complete item (.object members word :: stack), .comma =>
    some (name (members ++ [(word, item)]) stack)
  | complete item (.object members word :: stack), .closeObject =>
    some (complete (.object (members ++ [(word, item)])) stack)
  | _, _ => none

/-- The value that has been read, if nothing is missing. -/
def result? : Reading → Option Json
  | complete item [] => some item
  | _ => none

end Reading

/-- The value that a text writes. -/
def read (input : List Char) : Option Json :=
  (lex input).bind fun tokens => (tokens.foldlM Reading.step (.value [])).bind Reading.result?

end TemplateLint.Json
