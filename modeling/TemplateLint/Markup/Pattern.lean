import TemplateLint.Text.Find
import TemplateLint.Text.Span

/-!
# Patterns and their occurrences

A `Pattern` recognises a nonempty piece of text at the place where it is asked: `split?` cuts a
text into the piece it matches and the text that follows. `Pattern.find?` looks for the leftmost
place where a pattern matches, and `Pattern.findAll` for all of them from left to right, each
search going on where the last match ended.

* `Pattern.find?_eq_some`: the text before an occurrence, the match and the rest are the text, and
  the occurrence stands at the offset it names.
* `Pattern.length_rest_lt`: what follows an occurrence is shorter than the text searched, which is
  why the scans built on `find?` end.
-/

namespace TemplateLint.Markup

open TemplateLint.Text

/-- A way to recognise a nonempty piece of text where it begins. -/
structure Pattern where
  /-- The piece matched at the beginning of the text, and the text after it. -/
  split? : List Char → Option (List Char × List Char)
  /-- A match and its rest are the text. -/
  append_eq : ∀ {text matched rest}, split? text = some (matched, rest) → matched ++ rest = text
  /-- A match is never empty. -/
  ne_nil : ∀ {text matched rest}, split? text = some (matched, rest) → matched ≠ []

/-- A place in a text where a pattern matches. -/
structure Occurrence where
  /-- Offset of the first character matched. -/
  start : Nat
  /-- The text matched. -/
  matched : List Char
  /-- The text after the match. -/
  rest : List Char

namespace Occurrence

/-- Offset just after the match. -/
def stop (o : Occurrence) : Nat :=
  o.start + o.matched.length

/-- The characters matched. -/
def span (o : Occurrence) : Span :=
  Span.ofLength o.start o.matched.length

end Occurrence

namespace Pattern

/-- The pattern that matches one fixed text. -/
def literal (mark : List Char) (hmark : mark ≠ [] := by decide) : Pattern where
  split? text := (after? mark text).map (mark, ·)
  append_eq {text matched rest} h := by
    simp only [Option.map_eq_some_iff] at h
    obtain ⟨tail, htail, heq⟩ := h
    cases heq
    exact (after?_eq_some_iff.mp htail).symm
  ne_nil {text matched rest} h := by
    simp only [Option.map_eq_some_iff] at h
    obtain ⟨tail, -, heq⟩ := h
    cases heq
    exact hmark

/-- The leftmost occurrence in `text`, whose first character stands at offset `pos`. -/
def find? (pattern : Pattern) (pos : Nat) : List Char → Option Occurrence
  | [] => none
  | c :: text =>
    match pattern.split? (c :: text) with
    | some (matched, rest) => some ⟨pos, matched, rest⟩
    | none => pattern.find? (pos + 1) text

/-- Where an occurrence stands and what surrounds it. -/
theorem find?_eq_some {pattern : Pattern} {pos : Nat} {text : List Char} {o : Occurrence}
    (h : pattern.find? pos text = some o) :
    ∃ before, text = before ++ o.matched ++ o.rest ∧ o.start = pos + before.length ∧
      pattern.split? (o.matched ++ o.rest) = some (o.matched, o.rest) := by
  induction text generalizing pos with
  | nil => simp [find?] at h
  | cons c text ih =>
    rw [find?] at h
    split at h
    · next matched rest hsplit =>
      cases h
      have happend := pattern.append_eq hsplit
      exact ⟨[], by simp [happend], by simp, by rw [happend]; exact hsplit⟩
    · obtain ⟨before, htext, hstart, hsplit⟩ := ih h
      refine ⟨c :: before, by simp [htext], ?_, hsplit⟩
      simp only [hstart, List.length_cons]
      omega

/-- An occurrence does not stand before the text searched. -/
theorem le_start {pattern : Pattern} {pos : Nat} {text : List Char} {o : Occurrence}
    (h : pattern.find? pos text = some o) : pos ≤ o.start := by
  obtain ⟨before, -, hstart, -⟩ := find?_eq_some h
  omega

/-- The text after an occurrence is shorter than the text searched. -/
theorem length_rest_lt {pattern : Pattern} {pos : Nat} {text : List Char} {o : Occurrence}
    (h : pattern.find? pos text = some o) : o.rest.length < text.length := by
  obtain ⟨before, htext, -, hsplit⟩ := find?_eq_some h
  have hpos := List.length_pos_iff.mpr (pattern.ne_nil hsplit)
  rw [htext, List.length_append, List.length_append]
  omega

/-- All occurrences from left to right, none overlapping the one before it. -/
def findAll (pattern : Pattern) (pos : Nat) (text : List Char) : List Occurrence :=
  match _h : pattern.find? pos text with
  | none => []
  | some o => o :: pattern.findAll o.stop o.rest
termination_by text.length
decreasing_by exact length_rest_lt _h

/-- Whether the pattern matches anywhere in the text. -/
def matchesIn (pattern : Pattern) (text : List Char) : Bool :=
  (pattern.find? 0 text).isSome

end Pattern

end TemplateLint.Markup
