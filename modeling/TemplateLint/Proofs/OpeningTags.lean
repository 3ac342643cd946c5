import TemplateLint.Proofs.Anchors

/-!
# Opening tags

An opening tag runs from its head to the first two closing braces behind it. `openingTags_matches`
says what the scan for opening tags and the choice of those that want a closing tag come to:

* The tags are the leftmost matches of one expression whose middle is as short as possible, with
  the same offsets and names. A head that is left open ends the scan, and it hides no tag: if two
  closing braces stood behind a later head, they would stand behind this one too.
* Whether a tag closes itself is decided by one character of the template, though the scan looks
  for a slash and two braces anywhere in the tag.
-/

namespace TemplateLint.Markup

open TemplateLint.Text

namespace OpeningTag

@[simp] theorem span_toMatch (tag : OpeningTag) : tag.toMatch.span = tag.span := by
  rw [RegexMatch.span, span]
  simp [toMatch, text]

@[simp] theorem group_toMatch (tag : OpeningTag) : tag.toMatch.group 1 = tag.name := rfl

/-- Offset of the closing braces of a tag. -/
def closeStart (tag : OpeningTag) : Nat :=
  tag.start + 3 + (tag.name ++ tag.content).length

theorem span_stop (tag : OpeningTag) : tag.span.stop = tag.closeStart + closingBraces.length := by
  simp only [span, Span.ofLength, closeStart, text, List.length_append, List.length_cons,
    List.length_nil]
  omega

end OpeningTag

section Places

variable {source : List Char}

/-- The last character of a piece of text whose place is known. -/
private theorem getElem?_of_drop_append {piece rest : List Char} {i : Nat}
    (h : source.drop i = piece ++ rest) (hne : piece ≠ []) :
    source[i + piece.length - 1]? = piece.getLast? := by
  have hpos : 1 ≤ piece.length := List.length_pos_iff.mpr hne
  rw [Nat.add_sub_assoc hpos, ← List.getElem?_drop, h, List.getElem?_append_left (by omega),
    List.getLast?_eq_getElem?]

private theorem exists_drop_of_mem_openingTags {tag : OpeningTag} (h : tag ∈ openingTags source) :
    ∃ rest, source.drop (tag.start + 3) =
      (tag.name ++ tag.content) ++ (closingBraces ++ rest) := by
  obtain ⟨⟨rest, hrest⟩, -⟩ := standsAt_of_mem_openingTagsFrom rfl h
  have hdrop : source.drop tag.start =
      ['{', '{', '#'] ++ ((tag.name ++ tag.content) ++ (closingBraces ++ rest)) := by
    rw [← hrest]
    simp [OpeningTag.text]
  exact ⟨rest, drop_add_length hdrop⟩

private theorem closingBraces_prefix_drop {tag : OpeningTag} (h : tag ∈ openingTags source) :
    closingBraces <+: source.drop tag.closeStart := by
  obtain ⟨rest, hdrop⟩ := exists_drop_of_mem_openingTags h
  exact ⟨rest, (drop_add_length hdrop).symm⟩

/-- What stands before the closing braces of a tag is the end of its content, or of its name if it
has no content. -/
private theorem getElem?_closeStart {tag : OpeningTag} (h : tag ∈ openingTags source) :
    source[tag.closeStart - 1]? = (tag.name ++ tag.content).getLast? := by
  obtain ⟨-, hname, -⟩ := standsAt_of_mem_openingTagsFrom rfl h
  obtain ⟨rest, hdrop⟩ := exists_drop_of_mem_openingTags h
  exact getElem?_of_drop_append hdrop (by simp [hname])

theorem blockOpeners_eq_filter (source : List Char) :
    blockOpeners source =
      (openingTags source).filter fun tag => source[tag.closeStart - 1]? != some '/' := by
  refine List.filter_congr fun tag htag => ?_
  obtain ⟨hword, hcontent⟩ := of_mem_openingTagsFrom htag
  have hslash := OpeningTag.isSelfClosing_iff hword hcontent
  rw [← getElem?_closeStart htag] at hslash
  rw [Bool.eq_iff_iff, Bool.not_eq_true', ← Bool.not_eq_true, hslash, bne_iff_ne]

end Places

/-- **Opening tags are the matches of one expression**, offset by offset and name by name, and a tag
wants a closing tag exactly if no slash stands right before its closing braces. -/
theorem openingTags_matches (source : List Char) :
    (∃ found, LeftmostMatches openingTagParts source 0 found ∧
      found.map (fun m => (m.span, m.group 1)) =
        (openingTags source).map fun tag => (tag.span, tag.name)) ∧
    (∀ tag ∈ openingTags source, tag.span.stop = tag.closeStart + closingBraces.length ∧
      closingBraces <+: source.drop tag.closeStart) ∧
    blockOpeners source =
      (openingTags source).filter fun tag => source[tag.closeStart - 1]? != some '/' := by
  refine ⟨⟨_, leftmostMatches_openingTags source, by simp⟩, fun tag htag => ?_,
    blockOpeners_eq_filter source⟩
  exact ⟨tag.span_stop, closingBraces_prefix_drop htag⟩

end TemplateLint.Markup
