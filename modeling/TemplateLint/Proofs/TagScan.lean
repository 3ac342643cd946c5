import TemplateLint.Markup.BlockTag
import TemplateLint.Proofs.HeadRegex
import TemplateLint.Proofs.PatternSearch

/-!
# The scans for block tags find the leftmost matches

An opening tag is two braces, a hash, a name as long as possible, and then as little as possible up
to two closing braces; a closing tag is two braces, a slash, a name and two closing braces. Written
as regular expressions these are `openingTagParts` and `closingTagParts`, and the two scans find
their leftmost matches (`leftmostMatches_openingTags`, `leftmostMatches_closingTags`).

The scan for opening tags gives up as soon as one head has no two closing braces behind it. It may,
because then there are none behind any later head either.
-/

namespace TemplateLint.Markup

open TemplateLint.Text

/-! ### Names and marks -/

theorem splitName?_eq_some_iff {text name rest : List Char} :
    splitName? text = some (name, rest) ↔
      text = name ++ rest ∧ name ≠ [] ∧ (∀ c ∈ name, isWord c) ∧
        rest.head?.any isWord = false := by
  constructor
  · intro h
    have hname : text.takeWhile isWord = name ∧ text.dropWhile isWord = rest ∧ name ≠ [] := by
      unfold splitName? at h
      split at h
      · simp at h
      · next c tail htail =>
        cases h
        exact ⟨htail, rfl, by simp⟩
    obtain ⟨rfl, rfl, hne⟩ := hname
    exact ⟨List.takeWhile_append_dropWhile.symm, hne, List.all_eq_true.mp List.all_takeWhile,
      head?_any_dropWhile isWord text⟩
  · rintro ⟨rfl, hne, hword, hrest⟩
    have hrun := takeWhile_append_of_head? hword hrest
    rw [splitName?, hrun, dropWhile_append_of_head? hword hrest]
    cases name with
    | nil => exact absurd rfl hne
    | cons c name => rfl

theorem Pattern.split?_marked_append {mark : List Char}
    {inner : List Char → Option (List Char × List Char)}
    (hinner : ∀ {text piece rest}, inner text = some (piece, rest) → text = piece ++ rest)
    (hmark : mark ≠ []) (tail : List Char) :
    (Pattern.marked mark inner hinner hmark).split? (mark ++ tail) =
      (inner tail).map fun cut => (mark ++ cut.1, cut.2) := by
  simp only [Pattern.marked, after?_append, Option.bind_eq_bind, Option.bind_some]
  cases inner tail with
  | none => rfl
  | some cut => rfl

theorem Pattern.split?_marked_eq_some_iff {mark : List Char}
    {inner : List Char → Option (List Char × List Char)}
    (hinner : ∀ {text piece rest}, inner text = some (piece, rest) → text = piece ++ rest)
    (hmark : mark ≠ []) {text matched rest : List Char} :
    (Pattern.marked mark inner hinner hmark).split? text = some (matched, rest) ↔
      ∃ piece, matched = mark ++ piece ∧ text = mark ++ (piece ++ rest) ∧
        inner (piece ++ rest) = some (piece, rest) := by
  constructor
  · intro h
    cases hafter : after? mark text with
    | none => simp [Pattern.marked, hafter] at h
    | some tail =>
      obtain rfl := after?_eq_some_iff.mp hafter
      rw [split?_marked_append, Option.map_eq_some_iff] at h
      obtain ⟨⟨piece, later⟩, hpiece, heq⟩ := h
      cases heq
      have htail := hinner hpiece
      exact ⟨piece, rfl, by rw [htail], by rw [← htail]; exact hpiece⟩
  · rintro ⟨piece, rfl, rfl, hpiece⟩
    rw [split?_marked_append, hpiece, Option.map_some]

/-- The name of a tag is what stands behind the mark, if it is a name. -/
theorem tagName_append (mark : List Char) {name rest : List Char} (hmark : mark.length = 3)
    (hname : ∀ c ∈ name, isWord c) (hrest : rest.head?.any isWord = false) :
    tagName (mark ++ name ++ rest) = name := by
  rw [tagName, List.append_assoc, ← hmark, List.drop_left, takeWhile_append_of_head? hname hrest]

theorem tagName_openTag {name : List Char} (hname : ∀ c ∈ name, isWord c) :
    tagName (['{', '{', '#'] ++ name) = name := by
  rw [← List.append_nil (_ ++ name)]
  exact tagName_append _ rfl hname rfl

/-- What the head of an opening tag is. -/
theorem split?_openTag_eq_some_iff {text matched rest : List Char} :
    Head.openTag.pattern.split? text = some (matched, rest) ↔
      ∃ name, matched = ['{', '{', '#'] ++ name ∧ text = ['{', '{', '#'] ++ (name ++ rest) ∧
        name ≠ [] ∧ (∀ c ∈ name, isWord c) ∧ rest.head?.any isWord = false := by
  rw [Head.pattern, Pattern.split?_marked_eq_some_iff append_of_splitName? (by decide)]
  simp only [splitName?_eq_some_iff, true_and]

/-- What a closing tag is. -/
theorem split?_closingTag_eq_some_iff {text matched rest : List Char} :
    closingTag.split? text = some (matched, rest) ↔
      ∃ name, matched = ['{', '{', '/'] ++ name ++ closingBraces ∧
        text = ['{', '{', '/'] ++ (name ++ (closingBraces ++ rest)) ∧ name ≠ [] ∧
          ∀ c ∈ name, isWord c := by
  rw [closingTag, Pattern.split?_marked_eq_some_iff
    (append_of_closedBy? append_of_splitName?) (by decide)]
  constructor
  · rintro ⟨piece, rfl, rfl, hpiece⟩
    simp only [closedBy?, Option.bind_eq_bind, Option.bind_eq_some_iff, Option.pure_def,
      Option.some.injEq, Prod.mk.injEq] at hpiece
    obtain ⟨⟨name, tail⟩, hname, later, hlater, rfl, rfl⟩ := hpiece
    obtain ⟨-, hne, hword, -⟩ := splitName?_eq_some_iff.mp hname
    exact ⟨name, by simp [closingBraces], by simp [closingBraces], hne, hword⟩
  · rintro ⟨name, rfl, rfl, hne, hword⟩
    refine ⟨name ++ closingBraces, by simp, by simp, ?_⟩
    have hname : splitName? (name ++ (closingBraces ++ rest)) =
        some (name, closingBraces ++ rest) :=
      splitName?_eq_some_iff.mpr ⟨rfl, hne, hword, rfl⟩
    have hafter : after? ['}', '}'] ('}' :: '}' :: rest) = some rest :=
      after?_append closingBraces rest
    rw [List.append_assoc, closedBy?, hname]
    simp [hafter, closingBraces]

/-! ### Opening tags -/

/-- An opening tag as one regular expression. -/
def openingTagParts : List Regex :=
  [.literal ['{', '{', '#'], .oneOrMore isWord, .fewest fun _ => true, .literal closingBraces]

/-- An opening tag as a match of its expression. -/
def OpeningTag.toMatch (tag : OpeningTag) : RegexMatch :=
  ⟨tag.start, [['{', '{', '#'], tag.name, tag.content, closingBraces]⟩

section Opening

variable {source : List Char} {i j : Nat}

/-- A text that stands somewhere in the rest of a text stands in the text. -/
private theorem occursIn_drop_of_le {mark : List Char} (hij : i ≤ j)
    (h : occursIn mark (source.drop j)) : occursIn mark (source.drop i) := by
  obtain ⟨before, later, htext⟩ := occursIn_iff.mp h
  obtain ⟨k, rfl⟩ := Nat.exists_eq_add_of_le hij
  rw [← List.drop_drop] at htext
  refine occursIn_iff.mpr ⟨(source.drop i).take k ++ before, later, ?_⟩
  rw [List.append_assoc, List.append_assoc, ← List.append_assoc before, htext,
    List.take_append_drop]

/-- Two closing braces do not begin before the first closing brace. -/
theorem occursIn_closingBraces_append {piece : List Char} (hpiece : '}' ∉ piece)
    (rest : List Char) : occursIn closingBraces (piece ++ rest) = occursIn closingBraces rest := by
  induction piece with
  | nil => rfl
  | cons c piece ih =>
    obtain ⟨hc, hpiece⟩ := not_or.mp (mt List.mem_cons.mpr hpiece)
    rw [List.cons_append, occursIn, ih hpiece]
    simp [closingBraces, List.isPrefixOf, hc]

/-- Where no two closing braces follow there is no opening tag. -/
private theorem groupings_openingTag_eq_nil (h : occursIn closingBraces (source.drop i) = false) :
    Regex.groupings source openingTagParts i = [] := by
  have hnil : ∀ j, i ≤ j → Regex.groupings source
      [.fewest fun _ => true, .literal closingBraces] j = [] := by
    intro j hij
    rw [← List.head?_eq_none_iff, head?_groupings_fewest_literal, Option.map_eq_none_iff,
      splitFirst?_eq_none_iff]
    cases hj : occursIn closingBraces (source.drop j) with
    | false => rfl
    | true => simpa [h] using occursIn_drop_of_le hij hj
  rw [openingTagParts, Regex.groupings, List.flatMap_eq_nil_iff]
  intro k hk
  rw [Regex.groupings, List.map_eq_nil_iff, List.flatMap_eq_nil_iff]
  intro j hj
  have hik := (Regex.spells_of_mem_stops hk).le
  have hkj := (Regex.spells_of_mem_stops hj).le
  rw [hnil j (by omega), List.map_nil]

/-- Where there is no head there is no opening tag. -/
private theorem groupings_openingTag_eq_nil_of_split?
    (h : Head.openTag.pattern.split? (source.drop i) = none) :
    Regex.groupings source openingTagParts i = [] := by
  have hstops : Head.openTag.regex.stops source i = [] := by
    rw [← List.head?_eq_none_iff, Head.openTag.head?_stops, h, Option.map_none]
  rw [Head.regex, Regex.stops, List.flatMap_eq_nil_iff] at hstops
  rw [openingTagParts, Regex.groupings, List.flatMap_eq_nil_iff]
  intro k hk
  rw [Regex.groupings, hstops k hk, List.flatMap_nil, List.map_nil]

/-- A name is taken whole, and the tag then ends at the first two closing braces. -/
private theorem head?_groupings_openingTag {name rest content later : List Char}
    (htext : source.drop i = ['{', '{', '#'] ++ (name ++ rest)) (hne : name ≠ [])
    (hword : ∀ c ∈ name, isWord c) (hrest : rest.head?.any isWord = false)
    (hclose : splitFirst? closingBraces rest = some (content, later)) :
    (Regex.groupings source openingTagParts i).head? =
      some [['{', '{', '#'], name, content, closingBraces] := by
  have hname := drop_add_length htext
  have hstops : ((Regex.oneOrMore isWord).stops source (i + ['{', '{', '#'].length)).head? =
      some (i + ['{', '{', '#'].length + name.length) := by
    rw [head?_stops_name, hname, splitName?_eq_some_iff.mpr ⟨rfl, hne, hword, hrest⟩,
      Option.map_some]
  obtain ⟨others, hothers⟩ := List.head?_eq_some_iff.mp hstops
  have htail : (Regex.groupings source [.fewest fun _ => true, .literal closingBraces]
      (i + ['{', '{', '#'].length + name.length)).head? = some [content, closingBraces] := by
    rw [head?_groupings_fewest_literal, drop_add_length hname, hclose, Option.map_some]
  obtain ⟨ways, hways⟩ := List.head?_eq_some_iff.mp htail
  rw [openingTagParts, Regex.groupings, stops_literal_of_append htext, List.flatMap_singleton,
    Regex.groupings, hothers, List.flatMap_cons, hways, List.map_cons, List.cons_append,
    List.map_cons, List.head?_cons, Nat.add_sub_cancel_left, Nat.add_sub_cancel_left, htext,
    List.take_left, hname, List.take_left]

/-- What follows an opening tag that was found. -/
theorem drop_of_openingTag {pos : Nat} {o : Occurrence} {content later : List Char}
    (hfind : Head.openTag.pattern.find? pos (source.drop pos) = some o)
    (hclose : splitFirst? closingBraces o.rest = some (content, later)) :
    source.drop (o.stop + content.length + closingBraces.length) = later := by
  have hdrop := Pattern.drop_stop_of_find? hfind
  rw [append_of_splitFirst? hclose, List.append_assoc] at hdrop
  exact drop_add_length (drop_add_length hdrop)

private theorem leftmostMatches_openingTagsFrom (source : List Char) (pos : Nat) {text : List Char}
    (htext : source.drop pos = text) :
    LeftmostMatches openingTagParts source pos
      ((openingTagsFrom pos text).map OpeningTag.toMatch) := by
  fun_induction openingTagsFrom pos text with
  | case1 pos text hfind =>
    subst htext
    exact .nil fun i hi =>
      groupings_openingTag_eq_nil_of_split? (Pattern.split?_eq_none_of_find? hfind hi)
  | case2 pos text o hfind hclose =>
    subst htext
    obtain ⟨hsplit, hbefore⟩ := Pattern.split?_of_find? hfind
    obtain ⟨name, hmatched, -, -, hword, -⟩ := split?_openTag_eq_some_iff.mp hsplit
    have hbrace : '}' ∉ o.matched := by
      rw [hmatched]
      intro hmem
      rcases List.mem_append.mp hmem with hmem | hmem
      · exact absurd hmem (by decide)
      · exact absurd (hword _ hmem) (by simp)
    -- a later tag would have to end behind the head that was found
    have hnone : occursIn closingBraces (source.drop o.start) = false := by
      rw [Pattern.drop_start_of_find? hfind, occursIn_closingBraces_append hbrace]
      exact splitFirst?_eq_none_iff.mp hclose
    refine .nil fun i hi => ?_
    rcases Nat.lt_or_ge i o.start with hlt | hge
    · exact groupings_openingTag_eq_nil_of_split? (hbefore i hi hlt)
    · refine groupings_openingTag_eq_nil ?_
      cases hocc : occursIn closingBraces (source.drop i) with
      | false => rfl
      | true => simpa [hnone] using occursIn_drop_of_le hge hocc
  | case3 pos text o hfind content later hclose ih =>
    subst htext
    obtain ⟨hsplit, hbefore⟩ := Pattern.split?_of_find? hfind
    obtain ⟨name, hmatched, htext, hne, hword, hrest⟩ := split?_openTag_eq_some_iff.mp hsplit
    have hname : tagName o.matched = name := by rw [hmatched, tagName_openTag hword]
    rw [List.map_cons, hname]
    refine .cons (Pattern.le_start hfind) (fun i hi hlt => ?_) ?_ ?_
    · exact groupings_openingTag_eq_nil_of_split? (hbefore i hi hlt)
    · exact head?_groupings_openingTag htext hne hword hrest hclose
    · have hstop : (OpeningTag.toMatch ⟨o.start, name, content⟩).stop =
          o.stop + content.length + closingBraces.length := by
        simp only [OpeningTag.toMatch, RegexMatch.stop, Occurrence.stop, hmatched]
        simp
        omega
      rw [hstop]
      exact ih (drop_of_openingTag hfind hclose)

/-- **The scan for opening tags finds exactly the leftmost matches** of their expression. -/
theorem leftmostMatches_openingTags (source : List Char) :
    LeftmostMatches openingTagParts source 0 ((openingTags source).map OpeningTag.toMatch) :=
  leftmostMatches_openingTagsFrom source 0 rfl

end Opening

/-! ### Closing tags -/

/-- A closing tag as one regular expression. -/
def closingTagParts : List Regex :=
  [.literal ['{', '{', '/'], .oneOrMore isWord, .literal closingBraces]

/-- A closing tag as a match of its expression. -/
def ClosingTag.toMatch (tag : ClosingTag) : RegexMatch :=
  ⟨tag.start, [['{', '{', '/'], tag.name, closingBraces]⟩

/-- At every offset the recogniser of closing tags finds the preferred match. -/
private theorem head?_groupings_closingTag (source : List Char) (i : Nat) :
    (Regex.groupings source closingTagParts i).head? =
      (closingTag.split? (source.drop i)).map fun cut =>
        [['{', '{', '/'], tagName cut.1, closingBraces] := by
  rw [closingTagParts, Regex.groupings]
  cases hafter : after? ['{', '{', '/'] (source.drop i) with
  | none =>
    have hnone : closingTag.split? (source.drop i) = none := by
      cases hsplit : closingTag.split? (source.drop i) with
      | none => rfl
      | some cut =>
        obtain ⟨name, -, htext, -, -⟩ := split?_closingTag_eq_some_iff.mp hsplit
        rw [after?_eq_some_iff.mpr htext] at hafter
        simp at hafter
    rw [stops_literal_of_after?_eq_none hafter, hnone]
    rfl
  | some tail =>
    have htext := after?_eq_some_iff.mp hafter
    rw [stops_literal_of_append htext, List.flatMap_singleton, closingBraces,
      groupings_oneOrMore_literal (p := isWord) rfl, drop_add_length htext, htext]
    split
    · next h =>
      obtain ⟨rest, hrest⟩ := List.isPrefixOf_iff_prefix.mp h.2
      have htail : tail = tail.takeWhile isWord ++ (closingBraces ++ rest) := by
        rw [closingBraces, hrest, List.takeWhile_append_dropWhile]
      have hword : ∀ c ∈ tail.takeWhile isWord, isWord c := List.all_eq_true.mp List.all_takeWhile
      rw [split?_closingTag_eq_some_iff.mpr
        ⟨tail.takeWhile isWord, rfl, congrArg (['{', '{', '/'] ++ ·) htail, h.1, hword⟩,
        Option.map_some, tagName_append _ rfl hword rfl, Nat.add_sub_cancel_left, List.take_left]
      rfl
    · next h =>
      have hnone : closingTag.split? (['{', '{', '/'] ++ tail) = none := by
        cases hsplit : closingTag.split? (['{', '{', '/'] ++ tail) with
        | none => rfl
        | some cut =>
          obtain ⟨name, -, htail, hne, hword⟩ := split?_closingTag_eq_some_iff.mp hsplit
          obtain rfl := List.append_cancel_left htail
          rw [takeWhile_append_of_head? hword rfl, dropWhile_append_of_head? hword rfl] at h
          exact absurd ⟨hne, rfl⟩ h
      rw [hnone]
      rfl

/-- **The scan for closing tags finds exactly the leftmost matches** of their expression. -/
theorem leftmostMatches_closingTags (source : List Char) :
    LeftmostMatches closingTagParts source 0 ((closingTags source).map ClosingTag.toMatch) := by
  rw [closingTags, List.map_map]
  refine closingTag.leftmostMatches_findAll
    (fun matched => [['{', '{', '/'], tagName matched, closingBraces])
    (head?_groupings_closingTag source) ?_ 0
  intro text matched rest hsplit
  obtain ⟨name, rfl, -, -, hword⟩ := split?_closingTag_eq_some_iff.mp hsplit
  rw [tagName_append _ rfl hword rfl]
  simp

end TemplateLint.Markup
