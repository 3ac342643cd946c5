import Mathlib.Algebra.Group.Nat.Defs
import TemplateLint.Proofs.JsonReader
import TemplateLint.Proofs.RegexParts
import TemplateLint.Report.Rendering

/-!
# Printed reports can be read back

`Report.read_renderJson` says that the JSON form of a report loses nothing: it is plain text, and a
reader of JSON gets the report's findings from it, severity by severity. This holds of every value
(`Json.read_print`, `Json.plain_print`), whatever its strings are made of.

Each layer of the reader undoes one layer of the printer.

* Escapes give the UTF-16 units of a text (`readCodes_flatMap_escapeChar`), and joining these gives
  the text (`joinCodes_flatMap_utf16Units`).
* The layout gives the tokens of a value (`lex_print`), in any surroundings where no digit comes
  next: digits are the only characters by which a token could go on.
* The tokens of a value complete it (`foldlM_tokens`), on top of any stack.
-/

namespace TemplateLint.Json

open TemplateLint.Text

variable {rest : List Char}

/-! ### Hexadecimal digits -/

private theorem hexValue?_hexDigit {value : Nat} (h : value < 16) :
    hexValue? (hexDigit value) = some value := by
  have hall : ∀ value < 16, hexValue? (hexDigit value) = some value := by decide +kernel
  exact hall value h

private theorem hexNumber?_append (known : Nat) (first second : List Char) :
    hexNumber? known (first ++ second) =
      (hexNumber? known first).bind fun n => hexNumber? n second := by
  induction first generalizing known with
  | nil => rfl
  | cons c first ih => simp only [List.cons_append, hexNumber?, ih, Option.bind_assoc]

/-- Fixed-width digits write the number modulo what has so many digits. -/
private theorem hexNumber?_hex (width n known : Nat) :
    hexNumber? known (hex width n) = some (known * 16 ^ width + n % 16 ^ width) := by
  induction width generalizing n with
  | zero => simp [hex, hexNumber?, Nat.mod_one]
  | succ width ih =>
    rw [hex, hexNumber?_append, ih, Option.bind_some, hexNumber?,
      hexValue?_hexDigit (Nat.mod_lt n (by omega)), Option.bind_some, hexNumber?]
    congr 1
    rw [Nat.pow_succ', Nat.mod_mul, Nat.mul_comm 16 (16 ^ width), ← Nat.mul_assoc]
    omega

/-! ### Strings -/

private theorem readCodes_escapeUnit {n : Nat} (h : n < 0x10000) :
    readCodes (escapeUnit n ++ rest) = consCode? (some n) (readCodes rest) := by
  have hnumber := hexNumber?_hex 4 n 0
  simp only [Nat.reducePow, Nat.mod_eq_of_lt h, Nat.zero_mul, Nat.zero_add] at hnumber
  rw [← hnumber]
  rfl

/-- What is read where some codes come first. -/
private def prependCodes (codes : List Nat) (read : List Nat × List Char) : List Nat × List Char :=
  (codes ++ read.1, read.2)

private theorem consCode?_some (code : Nat) (read : Option (List Nat × List Char)) :
    consCode? (some code) read = read.map (prependCodes [code]) := rfl

private theorem readCodes_flatMap_escapeUnit {units : List Nat} (h : ∀ n ∈ units, n < 0x10000) :
    readCodes (units.flatMap escapeUnit ++ rest) = (readCodes rest).map (prependCodes units) := by
  induction units with
  | nil => exact Option.map_id'.symm
  | cons n units ih =>
    obtain ⟨hn, hunits⟩ := List.forall_mem_cons.mp h
    rw [List.flatMap_cons, List.append_assoc, readCodes_escapeUnit hn, ih hunits, consCode?_some,
      Option.map_map]
    rfl

private theorem readCodes_cons {c : Char} (hquote : c ≠ '"') (hbackslash : c ≠ '\\')
    (hcontrol : 0x20 ≤ c.toNat) :
    readCodes (c :: rest) = consCode? (some c.toNat) (readCodes rest) := by
  rw [readCodes, if_neg (by omega)]
  all_goals simp [hquote, hbackslash]

private theorem utf16Units_lt {c : Char} {n : Nat} (h : n ∈ utf16Units c) : n < 0x10000 := by
  have hvalid : c.toNat < 0xD800 ∨ 0xDFFF < c.toNat ∧ c.toNat < 0x110000 := c.valid
  rw [utf16Units] at h
  split at h
  · rw [List.mem_singleton] at h
    omega
  · simp only [List.mem_cons, List.not_mem_nil, or_false] at h
    omega

private theorem mem_of_lookup {c letter : Char} {table : List (Char × Char)}
    (h : table.lookup c = some letter) : (c, letter) ∈ table := by
  obtain ⟨before, after, rfl, -⟩ := List.lookup_eq_some_iff.mp h
  simp

/-- A character is read as its UTF-16 units, however it is escaped. -/
private theorem readCodes_escapeChar (c : Char) :
    readCodes (escapeChar c ++ rest) = (readCodes rest).map (prependCodes (utf16Units c)) := by
  rw [escapeChar]
  split
  · next h =>
    rcases h with rfl | rfl
    · rfl
    · rfl
  · next hspecial =>
    obtain ⟨hquote, hbackslash⟩ := not_or.mp hspecial
    split
    · next hprintable =>
      rw [List.singleton_append, readCodes_cons hquote hbackslash hprintable.1, consCode?_some,
        utf16Units, if_pos (by omega)]
    · split
      · next letter hletter =>
        have hentry := mem_of_lookup hletter
        simp only [shortEscapes, List.mem_cons, Prod.mk.injEq, List.not_mem_nil, or_false] at hentry
        rcases hentry with
          ⟨rfl, rfl⟩ | ⟨rfl, rfl⟩ | ⟨rfl, rfl⟩ | ⟨rfl, rfl⟩ | ⟨rfl, rfl⟩ <;> rfl
      · exact readCodes_flatMap_escapeUnit fun n hn => utf16Units_lt hn

theorem readCodes_flatMap_escapeChar (text : List Char) :
    readCodes (text.flatMap escapeChar ++ '"' :: rest) = some (text.flatMap utf16Units, rest) := by
  induction text with
  | nil => rfl
  | cons c text ih =>
    rw [List.flatMap_cons, List.append_assoc, readCodes_escapeChar, ih]
    rfl

/-- The UTF-16 units of a character are joined to this character, whatever comes after them. -/
private theorem joinCodes_utf16Units (c : Char) (codes : List Nat) :
    joinCodes (utf16Units c ++ codes) = (joinCodes codes).map (c :: ·) := by
  have hvalid : c.toNat < 0xD800 ∨ 0xDFFF < c.toNat ∧ c.toNat < 0x110000 := c.valid
  rw [utf16Units]
  split
  · rw [List.singleton_append, joinCodes.eq_def]
    simp only
    rw [if_neg (by omega), if_neg (by omega), Char.ofNat_toNat]
  · have hpair : 0x10000 + (0xD800 + (c.toNat - 0x10000) / 0x400 - 0xD800) * 0x400 +
        (0xDC00 + (c.toNat - 0x10000) % 0x400 - 0xDC00) = c.toNat := by omega
    rw [List.cons_append, List.singleton_append, joinCodes, if_pos (by omega), if_pos (by omega),
      hpair, Char.ofNat_toNat]

theorem joinCodes_flatMap_utf16Units (text : List Char) :
    joinCodes (text.flatMap utf16Units) = some text := by
  induction text with
  | nil => rfl
  | cons c text ih =>
    rw [List.flatMap_cons, joinCodes_utf16Units, ih]
    rfl

/-- A string is read as it was printed. -/
private theorem readToken_printText (text : String) :
    readToken (printText text ++ rest) = some (.text text, rest) := by
  have hquote (input : List Char) : readToken ('"' :: input) = readText input := rfl
  simp only [printText, List.cons_append, List.append_assoc, List.nil_append, hquote, readText,
    readCodes_flatMap_escapeChar, joinCodes_flatMap_utf16Units, Option.bind_some, Option.map_some,
    String.ofList_toList]

/-! ### Numbers -/

/-- Only zero is written with a zero in front. -/
private theorem toDigits_eq_zero_of_head? {n : Nat} (h : (Nat.toDigits 10 n).head? = some '0') :
    Nat.toDigits 10 n = ['0'] := by
  induction n using Nat.strongRecOn with
  | ind n ih =>
    by_cases hn : n < 10
    · rw [Nat.toDigits_of_lt_base hn] at h ⊢
      simpa using h
    · have hdigits := Nat.toDigits_of_base_le (b := 10) (by omega) (Nat.le_of_not_lt hn)
      rw [hdigits, List.head?_append, Option.or_of_isSome
        (List.isSome_head?.mpr Nat.toDigits_ne_nil)] at h
      -- the digits in front are those of `n / 10`, which would be zero
      have hzero := congrArg (Nat.ofDigitChars 10 · 0) (ih (n / 10) (by omega) h)
      simp only [Nat.ofDigitChars_ten_toDigits] at hzero
      have hdiv : n / 10 = 0 := hzero
      omega

private theorem readNumber_toString (n : Nat) (hrest : rest.head?.any Char.isDigit = false) :
    readNumber ((toString n).toList ++ rest) = some (.number n, rest) := by
  have hdigit : ∀ c ∈ Nat.toDigits 10 n, c.isDigit := fun c hc =>
    Nat.isDigit_of_mem_toDigits (by omega) (by omega) hc
  have hlead : ¬ (Nat.toDigits 10 n = [] ∨
      (Nat.toDigits 10 n).head? = some '0' ∧ Nat.toDigits 10 n ≠ ['0']) := by
    rintro (hnil | ⟨hhead, hne⟩)
    · exact Nat.toDigits_ne_nil hnil
    · exact hne (toDigits_eq_zero_of_head? hhead)
  rw [Nat.toString_eq_ofList_toDigits, String.toList_ofList, readNumber]
  simp only [takeWhile_append_of_head? hdigit hrest, dropWhile_append_of_head? hdigit hrest,
    if_neg hlead, Nat.ofDigitChars_ten_toDigits]

private theorem readToken_of_isDigit {c : Char} (h : c.isDigit) :
    readToken (c :: rest) = readNumber (c :: rest) := by
  unfold readToken
  split
  all_goals simp_all

private theorem readToken_of_isWhitespace {c : Char} (h : isWhitespace c) :
    readToken (c :: rest) = none := by
  simp only [isWhitespace, Bool.or_eq_true, beq_iff_eq] at h
  rcases h with ((rfl | rfl) | rfl) | rfl <;> rfl

/-! ### Tokens -/

section Lexing

variable {later : List Token}

/-- A token that can be read is the next one: no token begins with a blank. -/
private theorem lex_of_readToken {input : List Char} {token : Token}
    (h : readToken input = some (token, rest)) (hlater : lex rest = some later) :
    lex input = some (token :: later) := by
  cases input with
  | nil => cases h
  | cons c tail =>
    have hblank : ¬ isWhitespace c := by
      intro hblank
      rw [readToken_of_isWhitespace hblank] at h
      cases h
    rw [lex, if_neg hblank]
    split
    · next hnone =>
      rw [hnone] at h
      cases h
    · next hsome =>
      rw [hsome] at h
      cases h
      rw [hlater, Option.map_some]

private theorem lex_blanks {blanks : List Char} (h : ∀ c ∈ blanks, isWhitespace c)
    (hlater : lex rest = some later) : lex (blanks ++ rest) = some later := by
  induction blanks with
  | nil => exact hlater
  | cons c blanks ih =>
    obtain ⟨hc, hblanks⟩ := List.forall_mem_cons.mp h
    rw [List.cons_append, lex, if_pos hc, ih hblanks]

private theorem lex_newline {depth : Nat} (hlater : lex rest = some later) :
    lex (newline depth ++ rest) = some later := by
  refine lex_blanks (fun c hc => ?_) hlater
  rcases List.mem_cons.mp hc with rfl | hc
  · rfl
  · rw [List.eq_of_mem_replicate hc]
    rfl

private theorem lex_member {name : String} (hlater : lex rest = some later) :
    lex (printText name ++ ([':', ' '] ++ rest)) = some (.text name :: .colon :: later) := by
  have hspace : lex ([' '] ++ rest) = some later :=
    lex_blanks (List.forall_mem_singleton.mpr rfl) hlater
  exact lex_of_readToken (readToken_printText name) (lex_of_readToken rfl hspace)

private theorem lex_number (n : Nat) (hrest : rest.head?.any Char.isDigit = false)
    (hlater : lex rest = some later) :
    lex ((toString n).toList ++ rest) = some (.number n :: later) := by
  refine lex_of_readToken ?_ hlater
  rw [← readNumber_toString n hrest]
  cases hdigits : (toString n).toList with
  | nil => simp [Nat.toDigits_ne_nil] at hdigits
  | cons c digits =>
    have hc : c ∈ Nat.toDigits 10 n := by
      rw [← Nat.toList_repr, ← Nat.toString_eq_repr, hdigits]
      exact List.mem_cons_self
    exact readToken_of_isDigit (Nat.isDigit_of_mem_toDigits (by omega) (by omega) hc)

mutual

/-- The tokens of a value. -/
def tokens : Json → List Token
  | .text value => [.text value]
  | .number value => [.number value]
  | .boolean value => [.boolean value]
  | .array [] => [.openArray, .closeArray]
  | .array (item :: items) => .openArray :: tokens item ++ itemTokens items ++ [.closeArray]
  | .object [] => [.openObject, .closeObject]
  | .object ((name, value) :: members) =>
    .openObject :: .text name :: .colon :: tokens value ++ memberTokens members ++ [.closeObject]

/-- The tokens of the items of a list after the first one. -/
private def itemTokens : List Json → List Token
  | [] => []
  | item :: items => .comma :: tokens item ++ itemTokens items

/-- The tokens of the members of an object after the first one. -/
private def memberTokens : List (String × Json) → List Token
  | [] => []
  | (name, value) :: members =>
    .comma :: .text name :: .colon :: tokens value ++ memberTokens members

end

private theorem head?_printItems {depth : Nat} {items : List Json}
    (h : rest.head?.any Char.isDigit = false) :
    (printItems depth items ++ rest).head?.any Char.isDigit = false := by
  cases items with
  | nil => exact h
  | cons item items => rfl

private theorem head?_printMembers {depth : Nat} {members : List (String × Json)}
    (h : rest.head?.any Char.isDigit = false) :
    (printMembers depth members ++ rest).head?.any Char.isDigit = false := by
  cases members with
  | nil => exact h
  | cons member members => rfl

mutual

/-- A printed value gives its tokens, wherever no digit comes next. -/
theorem lex_print (depth : Nat) (value : Json) {rest : List Char} {later : List Token}
    (hrest : rest.head?.any Char.isDigit = false) (hlater : lex rest = some later) :
    lex (print depth value ++ rest) = some (tokens value ++ later) := by
  match value with
  | .text s => exact lex_of_readToken (readToken_printText s) hlater
  | .number n => exact lex_number n hrest hlater
  | .boolean true => exact lex_of_readToken rfl hlater
  | .boolean false => exact lex_of_readToken rfl hlater
  | .array [] => exact lex_of_readToken rfl (lex_of_readToken rfl hlater)
  | .array (item :: items) =>
    simp only [print, tokens, List.append_assoc, List.cons_append, List.nil_append]
    refine lex_of_readToken rfl (lex_newline ?_)
    refine lex_print (depth + 1) item (head?_printItems rfl) ?_
    refine lex_printItems (depth + 1) items rfl (lex_newline ?_)
    exact lex_of_readToken rfl hlater
  | .object [] => exact lex_of_readToken rfl (lex_of_readToken rfl hlater)
  | .object ((name, member) :: members) =>
    simp only [print, tokens, List.append_assoc, List.cons_append, List.nil_append]
    refine lex_of_readToken rfl (lex_newline (lex_member ?_))
    refine lex_print (depth + 1) member (head?_printMembers rfl) ?_
    refine lex_printMembers (depth + 1) members rfl (lex_newline ?_)
    exact lex_of_readToken rfl hlater

private theorem lex_printItems (depth : Nat) (items : List Json) {rest : List Char}
    {later : List Token}
    (hrest : rest.head?.any Char.isDigit = false) (hlater : lex rest = some later) :
    lex (printItems depth items ++ rest) = some (itemTokens items ++ later) := by
  match items with
  | [] => exact hlater
  | item :: items =>
    simp only [printItems, itemTokens, List.append_assoc, List.cons_append]
    refine lex_of_readToken rfl (lex_newline ?_)
    exact lex_print depth item (head?_printItems hrest) (lex_printItems depth items hrest hlater)

private theorem lex_printMembers (depth : Nat) (members : List (String × Json)) {rest : List Char}
    {later : List Token} (hrest : rest.head?.any Char.isDigit = false)
    (hlater : lex rest = some later) :
    lex (printMembers depth members ++ rest) = some (memberTokens members ++ later) := by
  match members with
  | [] => exact hlater
  | (name, value) :: members =>
    simp only [printMembers, memberTokens, List.append_assoc, List.cons_append]
    refine lex_of_readToken rfl (lex_newline (lex_member ?_))
    exact lex_print depth value (head?_printMembers hrest)
      (lex_printMembers depth members hrest hlater)

end

end Lexing

/-! ### Values -/

section Parsing

open Reading

private theorem foldlM_cons_of_step {reading next : Reading} {token : Token}
    (h : reading.step token = some next) (rest : List Token) :
    (token :: rest).foldlM step reading = rest.foldlM step next := by
  rw [List.foldlM_cons, h]
  rfl

private theorem foldlM_member (members : List (String × Json)) (word : String) (stack : List Frame)
    (rest : List Token) :
    (.text word :: .colon :: rest).foldlM step (name members stack) =
      rest.foldlM step (value (.object members word :: stack)) := by
  have hname : (name members stack).step (.text word) = some (colon members word stack) := by
    cases members <;> rfl
  rw [foldlM_cons_of_step hname, foldlM_cons_of_step rfl]

mutual

/-- Where a value has to come, its tokens complete it. -/
theorem foldlM_tokens (item : Json) (stack : List Frame) (rest : List Token) :
    (tokens item ++ rest).foldlM step (value stack) = rest.foldlM step (complete item stack) := by
  match item with
  | .text _ => exact foldlM_cons_of_step rfl _
  | .number _ => exact foldlM_cons_of_step rfl _
  | .boolean _ => exact foldlM_cons_of_step rfl _
  | .array [] =>
    rw [tokens, List.cons_append, foldlM_cons_of_step rfl]
    exact foldlM_cons_of_step rfl _
  | .array (first :: items) =>
    simp only [tokens, List.append_assoc, List.cons_append, List.nil_append]
    rw [foldlM_cons_of_step rfl, foldlM_tokens first, foldlM_itemTokens items]
    rfl
  | .object [] =>
    rw [tokens, List.cons_append, foldlM_cons_of_step rfl]
    exact foldlM_cons_of_step rfl _
  | .object ((word, first) :: members) =>
    simp only [tokens, List.append_assoc, List.cons_append, List.nil_append]
    rw [foldlM_cons_of_step rfl, foldlM_member, foldlM_tokens first, foldlM_memberTokens members]
    rfl

/-- After an item, the other items and the end of the list complete the list. -/
private theorem foldlM_itemTokens (items : List Json) (done : List Json) (item : Json)
    (stack : List Frame) (rest : List Token) :
    (itemTokens items ++ .closeArray :: rest).foldlM step (complete item (.array done :: stack)) =
      rest.foldlM step (complete (.array (done ++ item :: items)) stack) := by
  match items with
  | [] => exact foldlM_cons_of_step rfl _
  | next :: items =>
    simp only [itemTokens, List.append_assoc, List.cons_append]
    rw [foldlM_cons_of_step rfl, foldlM_tokens next, foldlM_itemTokens items, List.append_assoc,
      List.singleton_append]

/-- After a member, the other members and the end of the object complete the object. -/
private theorem foldlM_memberTokens (members : List (String × Json)) (done : List (String × Json))
    (word : String) (item : Json) (stack : List Frame) (rest : List Token) :
    (memberTokens members ++ .closeObject :: rest).foldlM step
        (complete item (.object done word :: stack)) =
      rest.foldlM step (complete (.object (done ++ (word, item) :: members)) stack) := by
  match members with
  | [] => exact foldlM_cons_of_step rfl _
  | (next, member) :: members =>
    simp only [memberTokens, List.append_assoc, List.cons_append]
    rw [foldlM_cons_of_step rfl, foldlM_member, foldlM_tokens member, foldlM_memberTokens members,
      List.append_assoc, List.singleton_append]

end

end Parsing

/-- **Reading gives back every value that is printed.** -/
theorem read_print (value : Json) : read (print 0 value) = some value := by
  have hnil : lex [] = some [] := by rw [lex]
  have hlex := lex_print 0 value rfl hnil
  rw [List.append_nil] at hlex
  rw [read, hlex, Option.bind_some, foldlM_tokens]
  rfl

/-! ### Characters -/

/-- A line end, or a character from the space to the tilde. -/
private def IsPlain (c : Char) : Prop :=
  c = '\n' ∨ 0x20 ≤ c.toNat ∧ c.toNat ≤ 0x7E

instance (c : Char) : Decidable (IsPlain c) :=
  inferInstanceAs (Decidable (_ ∨ _))

/-- Text in plain characters. -/
private def Plain (piece : List Char) : Prop :=
  ∀ c ∈ piece, IsPlain c

instance (piece : List Char) : Decidable (Plain piece) :=
  List.decidableBAll IsPlain piece

@[simp] theorem plain_nil : Plain [] := List.forall_mem_nil _

@[simp] theorem plain_cons {c : Char} {piece : List Char} :
    Plain (c :: piece) ↔ IsPlain c ∧ Plain piece :=
  List.forall_mem_cons

@[simp] theorem plain_append {first second : List Char} :
    Plain (first ++ second) ↔ Plain first ∧ Plain second :=
  List.forall_mem_append

private theorem plain_flatMap {α : Type} {f : α → List Char} {l : List α}
    (h : ∀ a ∈ l, Plain (f a)) :
    Plain (l.flatMap f) := by
  intro c hc
  obtain ⟨a, ha, hc⟩ := List.mem_flatMap.mp hc
  exact h a ha c hc

private theorem plain_hex (width n : Nat) : Plain (hex width n) := by
  induction width generalizing n with
  | zero => exact plain_nil
  | succ width ih =>
    have hdigit : ∀ value < 16, Plain [hexDigit value] := by decide +kernel
    exact plain_append.mpr ⟨ih (n / 16), hdigit _ (Nat.mod_lt n (by omega))⟩

private theorem plain_escapeChar (c : Char) : Plain (escapeChar c) := by
  rw [escapeChar]
  split
  · next h => rcases h with rfl | rfl <;> decide
  · split
    · next hprintable => exact plain_cons.mpr ⟨.inr hprintable, plain_nil⟩
    · split
      · next letter hletter =>
        have hletters : ∀ entry ∈ shortEscapes, Plain ['\\', entry.2] := by
          simp [shortEscapes, IsPlain]
        exact hletters _ (mem_of_lookup hletter)
      · refine plain_flatMap fun n _ => ?_
        simp only [escapeUnit, plain_cons, plain_hex, and_true]
        decide

@[simp] theorem plain_printText (text : String) : Plain (printText text) := by
  have hbody : Plain (text.toList.flatMap escapeChar) := plain_flatMap fun c _ => plain_escapeChar c
  simp only [printText, plain_append, plain_cons, hbody, plain_nil, and_true]
  decide

@[simp] theorem plain_newline (depth : Nat) : Plain (newline depth) := by
  refine plain_cons.mpr ⟨.inl rfl, fun c hc => ?_⟩
  rw [List.eq_of_mem_replicate hc]
  decide

private theorem plain_toString (n : Nat) : Plain (toString n).toList := by
  intro c hc
  rw [Nat.toString_eq_ofList_toDigits, String.toList_ofList] at hc
  have hdigit := Char.isDigit_iff_toNat.mp (Nat.isDigit_of_mem_toDigits (by omega) (by omega) hc)
  simp only [Char.reduceToNat] at hdigit
  exact .inr (by omega)

mutual

/-- **Values are printed in plain text.** -/
theorem plain_print (depth : Nat) (value : Json) : Plain (print depth value) := by
  match value with
  | .text s => exact plain_printText s
  | .number n => exact plain_toString n
  | .boolean true => simp [print, IsPlain]
  | .boolean false => simp [print, IsPlain]
  | .array [] => simp [print, IsPlain]
  | .array (item :: items) =>
    have hitem := plain_print (depth + 1) item
    have hitems := plain_printItems (depth + 1) items
    simp [print, hitem, hitems, IsPlain]
  | .object [] => simp [print, IsPlain]
  | .object ((name, member) :: members) =>
    have hmember := plain_print (depth + 1) member
    have hmembers := plain_printMembers (depth + 1) members
    simp [print, hmember, hmembers, IsPlain]

private theorem plain_printItems (depth : Nat) (items : List Json) :
    Plain (printItems depth items) := by
  match items with
  | [] => exact plain_nil
  | item :: items =>
    simp [printItems, plain_print depth item, plain_printItems depth items, IsPlain]

private theorem plain_printMembers (depth : Nat) (members : List (String × Json)) :
    Plain (printMembers depth members) := by
  match members with
  | [] => exact plain_nil
  | (name, value) :: members =>
    simp [printMembers, plain_print depth value, plain_printMembers depth members, IsPlain]

end

end TemplateLint.Json

namespace TemplateLint

/-- **No report is lost in print.** The JSON form of a report is plain text, and reading it gives an
object of the name of the template, if there is one, the findings of each severity in their order,
each with its offset if it stands somewhere, and whether there are no errors. -/
theorem Report.read_renderJson (report : Report) (source : Option String) :
    let found (d : Diagnostic) : Json := .object ([("type", .text d.code),
      ("message", .text d.message)] ++
        match d.span with
        | none => []
        | some span => [("position", .number span.start)])
    (∀ c ∈ (report.renderJson source).toList,
      c = '\n' ∨ 0x20 ≤ c.toNat ∧ c.toNat ≤ 0x7E) ∧
    Json.read (report.renderJson source).toList = some (.object (
      (match source with
        | none => []
        | some name => [("source", .text name)]) ++
      [("errors", .array (report.errors.map found)),
        ("warnings", .array (report.warnings.map found)),
        ("suggestions", .array (report.suggestions.map found)),
        ("isValid", .boolean report.errors.isEmpty)])) := by
  intro found
  have hfound : Diagnostic.toJson = found := by
    funext d
    simp only [Diagnostic.toJson, Diagnostic.position, found]
    cases d.span <;> rfl
  rw [Report.renderJson, Json.render, String.toList_ofList]
  refine ⟨Json.plain_print 0 _, ?_⟩
  rw [Json.read_print]
  simp only [Report.toJson, Report.members, hfound, Report.isValid]
  cases source <;> rfl

end TemplateLint
