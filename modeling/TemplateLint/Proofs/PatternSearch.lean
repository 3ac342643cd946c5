import TemplateLint.Markup.Pattern
import TemplateLint.Proofs.RegexMatches

/-!
# Searching with a pattern

A search through a text is stated here by offsets of the whole text: `Pattern.find?` from an
offset on returns the first offset at which the pattern matches, and nothing between the two is a
match. `Pattern.leftmostMatches_findAll` turns this into a statement about regular expressions: a
pattern that finds the preferred match at every offset finds all leftmost matches.
-/

namespace TemplateLint.Markup

open TemplateLint.Text

namespace Pattern

variable {pattern : Pattern} {source : List Char} {pos : Nat}

/-- Behind the end of a text there is nothing to match. -/
theorem split?_nil (pattern : Pattern) : pattern.split? [] = none := by
  cases h : pattern.split? [] with
  | none => rfl
  | some cut =>
    have hnil : cut.1 = [] := (List.append_eq_nil_iff.mp (pattern.append_eq h)).1
    exact absurd hnil (pattern.ne_nil h)

/-- What a fixed text matches is that text. -/
theorem split?_literal_eq_some_iff {mark text matched rest : List Char} (hmark : mark ≠ []) :
    (Pattern.literal mark hmark).split? text = some (matched, rest) ↔
      matched = mark ∧ text = mark ++ rest := by
  simp only [literal, Option.map_eq_some_iff, after?_eq_some_iff, Prod.mk.injEq]
  constructor
  · rintro ⟨tail, rfl, rfl, rfl⟩
    exact ⟨rfl, rfl⟩
  · rintro ⟨rfl, rfl⟩
    exact ⟨rest, rfl, rfl, rfl⟩

theorem find?_of_split? (pos : Nat) {text matched rest : List Char}
    (h : pattern.split? text = some (matched, rest)) :
    pattern.find? pos text = some ⟨pos, matched, rest⟩ := by
  cases text with
  | nil => simp [split?_nil] at h
  | cons c text => rw [find?, h]

/-- A search that finds nothing has passed no match. -/
theorem split?_eq_none_of_find? (h : pattern.find? pos (source.drop pos) = none) {i : Nat}
    (hi : pos ≤ i) : pattern.split? (source.drop i) = none := by
  induction htext : source.drop pos generalizing pos with
  | nil =>
    have hlength : source.length ≤ pos := List.drop_eq_nil_iff.mp htext
    rw [List.drop_eq_nil_of_le (by omega), split?_nil]
  | cons c text ih =>
    rw [htext, find?] at h
    split at h
    · simp at h
    · next hnone =>
      rcases Nat.eq_or_lt_of_le hi with rfl | hlt
      · rw [htext, hnone]
      · have hnext := drop_succ_of_cons htext
        exact ih (hnext ▸ h) hlt hnext

/-- A search that finds an occurrence has passed no match before it. -/
theorem split?_of_find? {o : Occurrence} (h : pattern.find? pos (source.drop pos) = some o) :
    pattern.split? (source.drop o.start) = some (o.matched, o.rest) ∧
      ∀ i, pos ≤ i → i < o.start → pattern.split? (source.drop i) = none := by
  induction htext : source.drop pos generalizing pos with
  | nil => simp [htext, find?] at h
  | cons c text ih =>
    rw [htext, find?] at h
    split at h
    · next matched rest hsplit =>
      cases h
      exact ⟨by rw [htext, hsplit], fun i hi (hlt : i < pos) => by omega⟩
    · next hnone =>
      have hnext := drop_succ_of_cons htext
      obtain ⟨hstart, hbefore⟩ := ih (hnext ▸ h) hnext
      refine ⟨hstart, fun i hi hlt => ?_⟩
      rcases Nat.eq_or_lt_of_le hi with rfl | hpos
      · rw [htext, hnone]
      · exact hbefore i hpos hlt

/-- Where a pattern matches, a search finds that match or one that begins before it. -/
theorem exists_find?_append {text : List Char} (h : (pattern.split? text).isSome) (pos : Nat)
    (before : List Char) :
    ∃ o, pattern.find? pos (before ++ text) = some o ∧ o.start ≤ pos + before.length := by
  induction before generalizing pos with
  | nil =>
    obtain ⟨cut, hcut⟩ := Option.isSome_iff_exists.mp h
    exact ⟨_, find?_of_split? pos hcut, Nat.le_refl _⟩
  | cons c before ih =>
    rw [List.cons_append, find?]
    split
    · exact ⟨_, rfl, Nat.le_add_right _ _⟩
    · obtain ⟨o, ho, hle⟩ := ih (pos + 1)
      refine ⟨o, ho, ?_⟩
      rw [List.length_cons]
      omega

theorem matchesIn_iff {text : List Char} :
    pattern.matchesIn text ↔
      ∃ before rest, text = before ++ rest ∧ (pattern.split? rest).isSome := by
  rw [matchesIn, Option.isSome_iff_exists]
  constructor
  · rintro ⟨o, ho⟩
    obtain ⟨before, htext, -, hsplit⟩ := find?_eq_some ho
    exact ⟨before, o.matched ++ o.rest, by rw [htext, List.append_assoc], by rw [hsplit]; rfl⟩
  · rintro ⟨before, rest, rfl, hrest⟩
    obtain ⟨o, ho, -⟩ := exists_find?_append hrest 0 before
    exact ⟨o, ho⟩

/-- What stands at the place of an occurrence. -/
theorem drop_start_of_find? {o : Occurrence} (h : pattern.find? pos (source.drop pos) = some o) :
    source.drop o.start = o.matched ++ o.rest :=
  (pattern.append_eq (split?_of_find? h).1).symm

/-- What stands behind an occurrence. -/
theorem drop_stop_of_find? {o : Occurrence} (h : pattern.find? pos (source.drop pos) = some o) :
    source.drop o.stop = o.rest :=
  drop_add_length (drop_start_of_find? h)

/-- **Finding one occurrence after the other finds the leftmost matches**, if at every offset the
pattern finds the preferred way to match `parts`. -/
theorem leftmostMatches_findAll {parts : List Regex} (groups : List Char → List (List Char))
    (hparts : ∀ i, (Regex.groupings source parts i).head? =
      (pattern.split? (source.drop i)).map fun cut => groups cut.1)
    (hgroups : ∀ {text matched rest}, pattern.split? text = some (matched, rest) →
      (groups matched).flatten = matched) (pos : Nat) :
    LeftmostMatches parts source pos
      ((pattern.findAll pos (source.drop pos)).map fun o => ⟨o.start, groups o.matched⟩) := by
  have hnone : ∀ i, pattern.split? (source.drop i) = none →
      Regex.groupings source parts i = [] := by
    intro i hi
    rw [← List.head?_eq_none_iff, hparts i, hi, Option.map_none]
  induction hlength : (source.drop pos).length using Nat.strongRecOn generalizing pos with
  | ind n ih =>
    rw [findAll]
    split
    · next h => exact .nil fun i hi => hnone i (split?_eq_none_of_find? h hi)
    · next o h =>
      obtain ⟨hsplit, hbefore⟩ := split?_of_find? h
      have hstop : (RegexMatch.mk o.start (groups o.matched)).stop = o.stop := by
        rw [RegexMatch.stop, hgroups hsplit, Occurrence.stop]
      refine .cons (le_start h) (fun i hi hlt => hnone i (hbefore i hi hlt)) ?_ ?_
      · rw [hparts, hsplit, Option.map_some]
      · have hrest := drop_stop_of_find? h
        have hshorter := length_rest_lt h
        rw [hstop, ← hrest]
        exact ih _ (by rw [← hlength, hrest]; exact hshorter) o.stop rfl

end Pattern

end TemplateLint.Markup
