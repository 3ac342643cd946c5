import TemplateLint.Proofs.BraceBalance
import TemplateLint.Proofs.Findings
import TemplateLint.Proofs.TagScan

/-!
# Which templates are valid

A template is valid if no rule of the first pass that is switched on finds anything in it.
`validate_isValid_iff` says what that comes to, without the scans of the rules: the braces of the
template are a balanced word, no expression is blank, and the names that block tags open are the
names that closing tags close. Expressions and tags are the leftmost matches of a regular
expression each.

The two halves of the pairing are separate scans over the two lists of tags; together they say
that the two sets of names are equal (`unpaired_eq_nil_iff`). Whether a tag closes itself is
decided by its last character (`OpeningTag.isSelfClosing_iff`), because two closing braces stand
nowhere in a tag but at its end.
-/

namespace TemplateLint

open TemplateLint.Markup TemplateLint.Text

namespace Markup

/-! ### Expressions -/

/-- An expression as one regular expression. -/
def expressionParts : List Regex :=
  [.literal ['{', '{'], .most (· != '}'), .literal closingBraces]

theorem leftmostMatches_expressions (source : List Char) :
    LeftmostMatches expressionParts source 0 ((expressions source).map Marker.toMatch) :=
  MarkerForm.leftmostMatches_markersFrom ⟨.expression, closingBraces, false⟩ rfl (by simp)
    source 0 rfl

private theorem blankExpressions_eq_nil_iff {source : List Char} :
    blankExpressions source = [] ↔
      ∀ m ∈ (expressions source).map Marker.toMatch, trim (m.group 1) ≠ [] := by
  simp [blankExpressions, List.filter_eq_nil_iff, Marker.toMatch, RegexMatch.group]

/-! ### Tags that close themselves -/

section SelfClosing

variable {text content later : List Char}

private theorem isPrefixOf_closingBraces (c : Char) (text : List Char) :
    closingBraces.isPrefixOf (c :: text) = (c == '}' && text.head? == some '}') := by
  rw [Bool.eq_iff_iff]
  cases text with
  | nil => simp [closingBraces, List.isPrefixOf]
  | cons d text => simp [closingBraces, List.isPrefixOf, @eq_comm Char '}']

/-- The first two closing braces do not begin in what stands before them. -/
private theorem occursIn_closingBraces_of_splitFirst?
    (h : splitFirst? closingBraces text = some (content, later)) :
    occursIn closingBraces (content ++ ['}']) = false := by
  induction text generalizing content with
  | nil => simp [splitFirst?, after?, closingBraces] at h
  | cons c text ih =>
    rw [splitFirst?] at h
    split at h
    · cases h
      rfl
    · next hafter =>
      simp only [Option.map_eq_some_iff] at h
      obtain ⟨⟨front, tail⟩, hsplit, heq⟩ := h
      cases heq
      have htext := append_of_splitFirst? hsplit
      -- what follows the character begins alike before and behind the cut
      have hhead : text.head? = (front ++ ['}']).head? := by
        rw [htext]
        cases front <;> rfl
      have hprefix : closingBraces.isPrefixOf (c :: text) = false := by
        cases hc : closingBraces.isPrefixOf (c :: text) with
        | false => rfl
        | true => simp [after?, hc] at hafter
      rw [List.cons_append, occursIn, ih hsplit, Bool.or_false, isPrefixOf_closingBraces,
        ← hhead, ← isPrefixOf_closingBraces, hprefix]

/-- An opening tag that was found has a name, and two closing braces stand only at its end. -/
theorem of_mem_openingTagsFrom {pos : Nat} {tag : OpeningTag}
    (h : tag ∈ openingTagsFrom pos text) :
    (∀ c ∈ tag.name, isWord c) ∧ occursIn closingBraces (tag.content ++ ['}']) = false := by
  fun_induction openingTagsFrom pos text with
  | case1 => simp at h
  | case2 => simp at h
  | case3 pos text o hfind content later hclose ih =>
    rcases List.mem_cons.mp h with rfl | h
    · exact ⟨List.all_eq_true.mp List.all_takeWhile, occursIn_closingBraces_of_splitFirst? hclose⟩
    · exact ih h

/-- Two closing braces stand at the end of a tag and nowhere else in it. -/
theorem OpeningTag.eq_nil_of_text_eq {tag : OpeningTag} (hword : ∀ c ∈ tag.name, isWord c)
    (hcontent : occursIn closingBraces (tag.content ++ ['}']) = false) {before rest : List Char}
    (htext : tag.text = before ++ closingBraces ++ rest) : rest = [] := by
  have hbrace : '}' ∉ ['{', '{', '#'] ++ tag.name := by
    intro hmem
    rcases List.mem_append.mp hmem with hmem | hmem
    · exact absurd hmem (by decide)
    · exact absurd (hword _ hmem) (by simp)
  have hend : occursIn closingBraces (['{', '{', '#'] ++ tag.name ++ (tag.content ++ ['}'])) =
      false := by
    rw [occursIn_closingBraces_append hbrace, hcontent]
  rcases List.eq_nil_or_concat rest with rfl | ⟨rest, c, rfl⟩
  · rfl
  · -- two closing braces would stand before the last character
    have hsplit : tag.text = ['{', '{', '#'] ++ tag.name ++ (tag.content ++ ['}']) ++ ['}'] := by
      simp [text, closingBraces]
    have hbody := congrArg List.dropLast htext
    rw [List.concat_eq_append, ← List.append_assoc, List.dropLast_concat, hsplit,
      List.dropLast_concat] at hbody
    have hoccurs : occursIn closingBraces
        (['{', '{', '#'] ++ tag.name ++ (tag.content ++ ['}'])) :=
      occursIn_iff.mpr ⟨before, rest, hbody.symm⟩
    rw [hend] at hoccurs
    exact absurd hoccurs Bool.false_ne_true

/-- **A tag closes itself** exactly if a slash stands before its closing braces. -/
theorem OpeningTag.isSelfClosing_iff {tag : OpeningTag} (hword : ∀ c ∈ tag.name, isWord c)
    (hcontent : occursIn closingBraces (tag.content ++ ['}']) = false) :
    tag.isSelfClosing ↔ (tag.name ++ tag.content).getLast? = some '/' := by
  rw [isSelfClosing, occursIn_iff]
  constructor
  · rintro ⟨before, rest, htext⟩
    have hslash : tag.text = before ++ ['/'] ++ closingBraces ++ rest := by
      simpa [closingBraces] using htext.symm
    -- the slash and the braces are the last characters of the tag
    obtain rfl := eq_nil_of_text_eq hword hcontent hslash
    have hbraces : before ++ ['/'] ++ closingBraces =
        ['{', '{', '#'] ++ (tag.name ++ tag.content) ++ closingBraces := by
      simpa [text, closingBraces] using htext
    have hbody := List.append_cancel_right hbraces
    have hlast := congrArg List.getLast? hbody
    rw [List.getLast?_concat, List.getLast?_append] at hlast
    cases h : (tag.name ++ tag.content).getLast? with
    | none => simp [h] at hlast
    | some c => simpa [h] using hlast.symm
  · intro hlast
    obtain ⟨body, hbody⟩ := List.getLast?_eq_some_iff.mp hlast
    refine ⟨['{', '{', '#'] ++ body, [], ?_⟩
    rw [text, List.append_assoc _ tag.name, hbody]
    simp [closingBraces]

end SelfClosing

/-! ### Pairing -/

private theorem mem_blockOpeners_iff {source : List Char} {tag : OpeningTag} :
    tag ∈ blockOpeners source ↔
      tag ∈ openingTags source ∧ (tag.name ++ tag.content).getLast? ≠ some '/' := by
  rw [blockOpeners, List.mem_filter]
  refine and_congr_right fun htag => ?_
  obtain ⟨hword, hcontent⟩ := of_mem_openingTagsFrom htag
  rw [ne_eq, ← OpeningTag.isSelfClosing_iff hword hcontent, Bool.not_eq_true', Bool.not_eq_true]

/-- No tag is unpaired exactly if the names that are opened are the names that are closed. -/
theorem unpaired_eq_nil_iff {source : List Char} :
    unclosedTags source = [] ∧ unopenedTags source = [] ↔
      ∀ name, name ∈ (blockOpeners source).map OpeningTag.name ↔
        name ∈ (closingTags source).map ClosingTag.name := by
  simp only [unclosedTags, unopenedTags, List.filter_eq_nil_iff, Bool.not_eq_true',
    Bool.not_eq_false, List.contains_iff_mem]
  constructor
  · rintro ⟨hopeners, hclosers⟩ name
    constructor
    · intro hname
      obtain ⟨tag, htag, rfl⟩ := List.mem_map.mp hname
      exact hopeners tag htag
    · intro hname
      obtain ⟨tag, htag, rfl⟩ := List.mem_map.mp hname
      exact hclosers tag htag
  · intro hnames
    exact ⟨fun tag htag => (hnames tag.name).mp (List.mem_map_of_mem htag),
      fun tag htag => (hnames tag.name).mpr (List.mem_map_of_mem htag)⟩

/-- The names that are opened, read off the matches. -/
private theorem mem_names_blockOpeners_iff {source name : List Char} :
    name ∈ (blockOpeners source).map OpeningTag.name ↔
      ∃ m ∈ (openingTags source).map OpeningTag.toMatch,
        (m.group 1 ++ m.group 2).getLast? ≠ some '/' ∧ m.group 1 = name := by
  simp only [List.mem_map, mem_blockOpeners_iff, and_assoc]
  constructor
  · rintro ⟨tag, htag, hlast, rfl⟩
    exact ⟨tag.toMatch, ⟨tag, htag, rfl⟩, hlast, rfl⟩
  · rintro ⟨m, ⟨tag, htag, rfl⟩, hlast, rfl⟩
    exact ⟨tag, htag, hlast, rfl⟩

/-- The names that are closed, read off the matches. -/
private theorem mem_names_closingTags_iff {source name : List Char} :
    name ∈ (closingTags source).map ClosingTag.name ↔
      ∃ m ∈ (closingTags source).map ClosingTag.toMatch, m.group 1 = name := by
  simp only [List.mem_map]
  constructor
  · rintro ⟨tag, htag, rfl⟩
    exact ⟨tag.toMatch, ⟨tag, htag, rfl⟩, rfl⟩
  · rintro ⟨m, ⟨tag, htag, rfl⟩, rfl⟩
    exact ⟨tag, htag, rfl⟩

end Markup

/-! ### Validity -/

theorem Options.isValid_report_iff {options : Options} {source : List Char} :
    (options.report source).isValid ↔
      ∀ kind ∈ Kind.errors, kind ∉ options.disabled → kind.findings options source = [] := by
  simp [Report.isValid_iff, Options.errors_report, List.flatMap_eq_nil_iff]

private theorem Kind.findings_unmatchedTag_eq_nil_iff {options : Options} {source : List Char} :
    Kind.unmatchedTag.findings options source = [] ↔
      unclosedTags source = [] ∧ unopenedTags source = [] := by
  simp [findings]

theorem Kind.findings_emptyExpression_eq_nil_iff {options : Options} {source : List Char} :
    Kind.emptyExpression.findings options source = [] ↔ blankExpressions source = [] := by
  simp [findings]

theorem Kind.findings_unmatchedBrackets_eq_nil_iff {options : Options} {source : List Char} :
    Kind.unmatchedBrackets.findings options source = [] ↔ Balanced (braces source) := by
  rw [balanced_braces_iff]
  simp [findings, Spec.when]

/-- **A template is valid** exactly if, as far as the codes are switched on, its braces are a
balanced word, no expression is blank, and the names of the opening tags that do not close
themselves are the names of the closing tags. Expressions, opening tags and closing tags are the
leftmost matches of their expressions, and there always is a report. -/
theorem validate_isValid_iff (source : List Char) (options : Options) :
    ∃ expressions openings closings report,
      LeftmostMatches expressionParts source 0 expressions ∧
      LeftmostMatches openingTagParts source 0 openings ∧
      LeftmostMatches closingTagParts source 0 closings ∧
      validate source options = .ok report ∧
      (report.isValid ↔
        (Kind.unmatchedBrackets ∉ options.disabled → Balanced (braces source)) ∧
        (Kind.emptyExpression ∉ options.disabled → ∀ m ∈ expressions, trim (m.group 1) ≠ []) ∧
        (Kind.unmatchedTag ∉ options.disabled → ∀ name,
          (∃ m ∈ openings, (m.group 1 ++ m.group 2).getLast? ≠ some '/' ∧ m.group 1 = name) ↔
            ∃ m ∈ closings, m.group 1 = name)) := by
  refine ⟨_, _, _, _, leftmostMatches_expressions source, leftmostMatches_openingTags source,
    leftmostMatches_closingTags source, validate_eq_ok source options, ?_⟩
  rw [Options.isValid_report_iff]
  simp only [Kind.errors, List.forall_mem_cons, List.not_mem_nil, false_implies, implies_true,
    and_true, Kind.findings_unmatchedTag_eq_nil_iff, Kind.findings_emptyExpression_eq_nil_iff,
    Kind.findings_unmatchedBrackets_eq_nil_iff, unpaired_eq_nil_iff, blankExpressions_eq_nil_iff,
    mem_names_blockOpeners_iff, mem_names_closingTags_iff]
  exact ⟨fun ⟨htags, hblank, hbraces⟩ => ⟨hbraces, hblank, htags⟩,
    fun ⟨hbraces, hblank, htags⟩ => ⟨htags, hblank, hbraces⟩⟩

end TemplateLint
