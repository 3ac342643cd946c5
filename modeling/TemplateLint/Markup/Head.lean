import TemplateLint.Markup.Pattern
import TemplateLint.Text.Word

/-!
# Heads and closing marks

Everything the linter looks for in a template begins with two braces. A `Head` says how such a
marker begins; `Head.pattern` recognises the longest text of that kind. Closing tags stand whole
in the text, so they have patterns of their own.

Names are maximal runs of word characters, and a form is a block whose name ends in `_form` with
at least one character before that ending.
-/

namespace TemplateLint.Markup

open TemplateLint.Text

/-! ### Names -/

/-- The ending that makes a block a form. -/
def formEnding : List Char := ['_', 'f', 'o', 'r', 'm']

/-- Whether a name is that of a form. -/
def isFormName (name : List Char) : Bool :=
  formEnding.isSuffixOf name && decide (formEnding.length < name.length)

/-- The word characters that `text` begins with, and the text after them; at least one. -/
def splitName? (text : List Char) : Option (List Char × List Char) :=
  match text.takeWhile isWord with
  | [] => none
  | c :: name => some (c :: name, text.dropWhile isWord)

theorem append_of_splitName? {text name rest : List Char}
    (h : splitName? text = some (name, rest)) : text = name ++ rest := by
  unfold splitName? at h
  split at h
  · simp at h
  · next c tail hname =>
    cases h
    rw [← hname, List.takeWhile_append_dropWhile]

/-- The longest form name that `text` begins with. It may end inside a run of word characters. -/
def splitFormStem? (text : List Char) : Option (List Char × List Char) :=
  match text.takeWhile isWord with
  | [] => none
  | c :: name =>
    (splitLast? formEnding name).map fun (stem, rest) =>
      (c :: stem ++ formEnding, rest ++ text.dropWhile isWord)

theorem append_of_splitFormStem? {text name rest : List Char}
    (h : splitFormStem? text = some (name, rest)) : text = name ++ rest := by
  unfold splitFormStem? at h
  split at h
  · simp at h
  · next c tail hname =>
    simp only [Option.map_eq_some_iff] at h
    obtain ⟨⟨stem, later⟩, hsplit, heq⟩ := h
    cases heq
    calc text = c :: tail ++ text.dropWhile isWord := by
          rw [← hname, List.takeWhile_append_dropWhile]
      _ = _ := by simp [append_of_splitLast? hsplit]

/-- The run of word characters that `text` begins with, if the whole run is a form name. -/
def splitFormName? (text : List Char) : Option (List Char × List Char) :=
  (splitName? text).filter fun (name, _) => isFormName name

theorem append_of_splitFormName? {text name rest : List Char}
    (h : splitFormName? text = some (name, rest)) : text = name ++ rest := by
  rw [splitFormName?, Option.filter_eq_some_iff] at h
  exact append_of_splitName? h.1

/-! ### A fixed mark followed by something -/

/-- A fixed mark, and then whatever `inner` accepts after it. -/
def Pattern.marked (mark : List Char) (inner : List Char → Option (List Char × List Char))
    (hinner : ∀ {text piece rest}, inner text = some (piece, rest) → text = piece ++ rest)
    (hmark : mark ≠ [] := by decide) : Pattern where
  split? text := do
    let tail ← after? mark text
    let (piece, rest) ← inner tail
    return (mark ++ piece, rest)
  append_eq {text matched rest} h := by
    simp only [Option.bind_eq_bind, Option.bind_eq_some_iff, Option.pure_def,
      Option.some.injEq] at h
    obtain ⟨tail, htail, ⟨piece, later⟩, hpiece, heq⟩ := h
    cases heq
    rw [after?_eq_some_iff.mp htail, hinner hpiece, List.append_assoc]
  ne_nil {text matched rest} h := by
    simp only [Option.bind_eq_bind, Option.bind_eq_some_iff, Option.pure_def,
      Option.some.injEq] at h
    obtain ⟨tail, -, ⟨piece, later⟩, -, heq⟩ := h
    cases heq
    simp [hmark]

/-- A hash that may be left out, and then whatever `inner` accepts. -/
def skipHash (inner : List Char → Option (List Char × List Char)) (text : List Char) :
    Option (List Char × List Char) :=
  match text with
  | '#' :: tail => (inner tail).map fun (piece, rest) => ('#' :: piece, rest)
  | _ => inner text

theorem append_of_skipHash {inner : List Char → Option (List Char × List Char)}
    (hinner : ∀ {text piece rest}, inner text = some (piece, rest) → text = piece ++ rest)
    {text piece rest : List Char} (h : skipHash inner text = some (piece, rest)) :
    text = piece ++ rest := by
  unfold skipHash at h
  split at h
  · simp only [Option.map_eq_some_iff] at h
    obtain ⟨⟨name, later⟩, hname, heq⟩ := h
    cases heq
    simp [hinner hname]
  · exact hinner h

/-- Nothing, where no word character follows. -/
def wordEnd? (text : List Char) : Option (List Char × List Char) :=
  if text.head?.any isWord then none else some ([], text)

theorem append_of_wordEnd? {text piece rest : List Char}
    (h : wordEnd? text = some (piece, rest)) : text = piece ++ rest := by
  unfold wordEnd? at h
  split at h
  · simp at h
  · cases h; simp

/-- What `inner` accepts, followed by two closing braces. -/
def closedBy? (inner : List Char → Option (List Char × List Char)) (text : List Char) :
    Option (List Char × List Char) := do
  let (piece, tail) ← inner text
  let rest ← after? ['}', '}'] tail
  return (piece ++ ['}', '}'], rest)

theorem append_of_closedBy? {inner : List Char → Option (List Char × List Char)}
    (hinner : ∀ {text piece rest}, inner text = some (piece, rest) → text = piece ++ rest)
    {text piece rest : List Char} (h : closedBy? inner text = some (piece, rest)) :
    text = piece ++ rest := by
  simp only [closedBy?, Option.bind_eq_bind, Option.bind_eq_some_iff, Option.pure_def,
    Option.some.injEq] at h
  obtain ⟨⟨name, tail⟩, hname, later, hlater, heq⟩ := h
  cases heq
  have htail : tail = ['}', '}'] ++ rest := after?_eq_some_iff.mp hlater
  rw [hinner hname, htail, List.append_assoc]

/-! ### The heads -/

/-- How a braced marker begins. -/
inductive Head where
  /-- Two braces, a hash and a name: an opening block tag. -/
  | openTag
  /-- Two braces: any expression. -/
  | expression
  /-- Three braces: output that is not escaped. -/
  | rawOutput
  /-- Two braces, a hash or none, and a form name, which need not end where its word does. -/
  | form
  /-- Two braces, a hash or none, and a word that is a form name. -/
  | wholeForm
  /-- Two braces, a hash and the word `for`. -/
  | loop
  deriving DecidableEq

/-- Every head. -/
def Head.all : List Head :=
  [.openTag, .expression, .rawOutput, .form, .wholeForm, .loop]

/-- What a head matches. -/
def Head.pattern : Head → Pattern
  | .openTag => .marked ['{', '{', '#'] splitName? append_of_splitName?
  | .expression => .literal ['{', '{']
  | .rawOutput => .literal ['{', '{', '{']
  | .form =>
    .marked ['{', '{'] (skipHash splitFormStem?) (append_of_skipHash append_of_splitFormStem?)
  | .wholeForm =>
    .marked ['{', '{'] (skipHash splitFormName?) (append_of_skipHash append_of_splitFormName?)
  | .loop => .marked ['{', '{', '#', 'f', 'o', 'r'] wordEnd? append_of_wordEnd?

/-! ### Closing tags -/

/-- A closing tag of any name. -/
def closingTag : Pattern :=
  .marked ['{', '{', '/'] (closedBy? splitName?) (append_of_closedBy? append_of_splitName?)

/-- The closing tag of a form. -/
def formClosingTag : Pattern :=
  .marked ['{', '{', '/'] (closedBy? splitFormName?) (append_of_closedBy? append_of_splitFormName?)

/-- The closing tag of a loop. -/
def loopClosingTag : Pattern :=
  .literal ['{', '{', '/', 'f', 'o', 'r', '}', '}']

end TemplateLint.Markup
