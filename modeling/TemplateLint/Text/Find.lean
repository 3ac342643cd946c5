/-!
# Finding one text in another

Texts are lists of characters. `occursIn` decides whether a text stands somewhere in another one,
`splitFirst?` cuts a text at the first place where a mark stands, and `splitLast?` at the last.
The laws say what the pieces are: put together again with the mark they are the text.
-/

namespace TemplateLint.Text

/-- The text that follows `mark`, if `text` begins with it. -/
def after? (mark text : List Char) : Option (List Char) :=
  if mark.isPrefixOf text then some (text.drop mark.length) else none

theorem after?_eq_some_iff {mark text rest : List Char} :
    after? mark text = some rest ↔ text = mark ++ rest := by
  unfold after?
  constructor
  · intro h
    split at h
    · next hmark =>
      obtain ⟨tail, rfl⟩ := List.isPrefixOf_iff_prefix.mp hmark
      simpa using h
    · simp at h
  · rintro rfl
    have hmark : mark.isPrefixOf (mark ++ rest) = true :=
      List.isPrefixOf_iff_prefix.mpr ⟨rest, rfl⟩
    simp [hmark]

@[simp] theorem after?_append (mark rest : List Char) : after? mark (mark ++ rest) = some rest :=
  after?_eq_some_iff.mpr rfl

/-- Whether `needle` stands somewhere in the text; the empty text stands everywhere. -/
def occursIn (needle : List Char) : List Char → Bool
  | [] => needle.isEmpty
  | c :: text => needle.isPrefixOf (c :: text) || occursIn needle text

theorem occursIn_iff {needle text : List Char} :
    occursIn needle text ↔ ∃ before later, before ++ needle ++ later = text := by
  change _ ↔ needle <:+: text
  induction text with
  | nil => simp [occursIn]
  | cons c text ih =>
    rw [occursIn, Bool.or_eq_true, List.isPrefixOf_iff_prefix, ih, List.infix_cons_iff]

/-- The text before and the text after the first place where `mark` stands. -/
def splitFirst? (mark : List Char) : List Char → Option (List Char × List Char)
  | [] => (after? mark []).map ([], ·)
  | c :: text =>
    match after? mark (c :: text) with
    | some rest => some ([], rest)
    | none => (splitFirst? mark text).map fun (before, rest) => (c :: before, rest)

theorem append_of_splitFirst? {mark text before rest : List Char}
    (h : splitFirst? mark text = some (before, rest)) : text = before ++ mark ++ rest := by
  induction text generalizing before with
  | nil =>
    simp only [splitFirst?, Option.map_eq_some_iff] at h
    obtain ⟨tail, htail, heq⟩ := h
    cases heq
    simpa using after?_eq_some_iff.mp htail
  | cons c text ih =>
    rw [splitFirst?] at h
    split at h
    · next tail htail =>
      cases h
      simpa using after?_eq_some_iff.mp htail
    · simp only [Option.map_eq_some_iff] at h
      obtain ⟨⟨front, tail⟩, hsplit, heq⟩ := h
      cases heq
      simpa using ih hsplit

theorem splitFirst?_eq_none_iff {mark text : List Char} :
    splitFirst? mark text = none ↔ occursIn mark text = false := by
  induction text with
  | nil => cases mark <;> simp [splitFirst?, occursIn, after?]
  | cons c text ih =>
    rw [splitFirst?, occursIn, Bool.or_eq_false_iff, ← ih]
    cases hmark : mark.isPrefixOf (c :: text) <;> simp [after?, hmark]

/-- The text before and the text after the last place where `mark` stands. -/
def splitLast? (mark : List Char) : List Char → Option (List Char × List Char)
  | [] => (after? mark []).map ([], ·)
  | c :: text =>
    match splitLast? mark text with
    | some (before, rest) => some (c :: before, rest)
    | none => (after? mark (c :: text)).map ([], ·)

theorem append_of_splitLast? {mark text before rest : List Char}
    (h : splitLast? mark text = some (before, rest)) : text = before ++ mark ++ rest := by
  induction text generalizing before with
  | nil =>
    simp only [splitLast?, Option.map_eq_some_iff] at h
    obtain ⟨tail, htail, heq⟩ := h
    cases heq
    simpa using after?_eq_some_iff.mp htail
  | cons c text ih =>
    rw [splitLast?] at h
    split at h
    · next front tail hsplit =>
      cases h
      simpa using ih hsplit
    · simp only [Option.map_eq_some_iff] at h
      obtain ⟨tail, htail, heq⟩ := h
      cases heq
      simpa using after?_eq_some_iff.mp htail

end TemplateLint.Text
