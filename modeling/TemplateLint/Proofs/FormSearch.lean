import TemplateLint.Proofs.Findings
import TemplateLint.Proofs.Stretches
import TemplateLint.Proofs.TagScan

/-!
# The search for forms

A template holds a form if one of two expressions matches somewhere in it: `formBlockParts`, the
head of a form with the closing tag of a form anywhere behind it, and `selfClosingFormParts`, the
head of a form whose next closing brace has a slash before it. `noForms_check_iff` says that the
rule about forms reports exactly the templates in which neither does.

Neither search tries all the ways to match. For blocks only the first head is looked at, and of its
matches only the longest; for self-closing forms only the first head before each closing brace. In
both cases what follows any other head follows the one that was taken as well, because the name in
a head holds neither braces nor slashes.
-/

namespace TemplateLint

open TemplateLint.Markup TemplateLint.Text

namespace Markup

/-- Parts that match one after the other somewhere in a text. -/
def OccursIn (parts : List Regex) (source : List Char) : Prop :=
  ∃ i, Regex.groupings source parts i ≠ []

/-! ### Closing tags of forms -/

/-- The closing tag of a form as a regular expression. -/
def formClosingRegex : Regex :=
  .seq (.literal ['{', '{', '/']) (.seq (.oneOrMore isWord)
    (.seq (.literal formEnding) (.literal closingBraces)))

/-- A text begins with the closing tag of a form. -/
private def BeginsWithFormClosing (text : List Char) : Prop :=
  ∃ stem rest, text = ['{', '{', '/'] ++ (stem ++ (formEnding ++ (closingBraces ++ rest))) ∧
    stem ≠ [] ∧ ∀ c ∈ stem, isWord c

section Closing

variable {source text : List Char} {i : Nat}

theorem isFormName_iff {name : List Char} :
    isFormName name ↔ ∃ stem, stem ≠ [] ∧ name = stem ++ formEnding := by
  rw [isFormName, Bool.and_eq_true, List.isSuffixOf_iff_suffix, decide_eq_true_eq]
  constructor
  · rintro ⟨⟨stem, rfl⟩, hlength⟩
    refine ⟨stem, ?_, rfl⟩
    rintro rfl
    simp at hlength
  · rintro ⟨stem, hne, rfl⟩
    have hpos := List.length_pos_iff.mpr hne
    refine ⟨⟨stem, rfl⟩, ?_⟩
    rw [List.length_append]
    omega

private theorem stops_formClosing_ne_nil_iff :
    formClosingRegex.stops source i ≠ [] ↔ BeginsWithFormClosing (source.drop i) := by
  constructor
  · intro hne
    obtain ⟨j, hj⟩ := List.exists_mem_of_ne_nil _ hne
    obtain ⟨⟨text, htext⟩, hj⟩ := mem_stops_seq_literal.mp hj
    rw [Regex.stops, List.mem_flatMap] at hj
    obtain ⟨k, hk, hj⟩ := hj
    obtain ⟨stem, text₁, hstem, rfl, hne, hword⟩ := mem_stops_oneOrMore.mp hk
    obtain ⟨⟨text₂, hending⟩, hj⟩ := mem_stops_seq_literal.mp hj
    obtain ⟨⟨rest, hbraces⟩, -⟩ := mem_stops_literal.mp hj
    refine ⟨stem, rest, ?_, hne, hword⟩
    rw [htext, ← drop_add_length htext, hstem, ← drop_add_length hstem, hending,
      ← drop_add_length hending, hbraces]
  · rintro ⟨stem, rest, htext, hne, hword⟩
    have hstem := drop_add_length htext
    have hending := drop_add_length hstem
    have hbraces := drop_add_length hending
    have hname : i + ['{', '{', '/'].length + stem.length + formEnding.length +
        closingBraces.length ∈ (Regex.seq (.oneOrMore isWord)
          (.seq (.literal formEnding) (.literal closingBraces))).stops source
            (i + ['{', '{', '/'].length) := by
      rw [Regex.stops, List.mem_flatMap]
      exact ⟨_, mem_stops_oneOrMore.mpr ⟨stem, _, hstem, rfl, hne, hword⟩,
        mem_stops_seq_literal.mpr ⟨⟨_, hending⟩, mem_stops_literal.mpr ⟨⟨rest, hbraces⟩, rfl⟩⟩⟩
    exact List.ne_nil_of_mem (mem_stops_seq_literal.mpr ⟨⟨_, htext⟩, hname⟩)

/-- The recogniser takes the whole word before the closing braces, so it misses no closing tag. -/
private theorem isSome_split?_formClosingTag_iff :
    (formClosingTag.split? text).isSome ↔ BeginsWithFormClosing text := by
  constructor
  · intro hsome
    obtain ⟨⟨matched, rest⟩, hsplit⟩ := Option.isSome_iff_exists.mp hsome
    obtain ⟨piece, rfl, rfl, hpiece⟩ := (Pattern.split?_marked_eq_some_iff
      (append_of_closedBy? append_of_splitFormName?) (by decide)).mp hsplit
    simp only [closedBy?, Option.bind_eq_bind, Option.bind_eq_some_iff] at hpiece
    obtain ⟨⟨name, tail⟩, hname, later, hlater, -⟩ := hpiece
    rw [splitFormName?, Option.filter_eq_some_iff] at hname
    obtain ⟨htext, -, hword, -⟩ := splitName?_eq_some_iff.mp hname.1
    obtain ⟨stem, hne, rfl⟩ := isFormName_iff.mp hname.2
    have htail : tail = closingBraces ++ later := after?_eq_some_iff.mp hlater
    refine ⟨stem, later, ?_, hne, fun c hc => hword c (List.mem_append_left _ hc)⟩
    rw [htext, htail, List.append_assoc]
  · rintro ⟨stem, rest, rfl, hne, hword⟩
    have hname : splitFormName? (stem ++ (formEnding ++ (closingBraces ++ rest))) =
        some (stem ++ formEnding, closingBraces ++ rest) := by
      rw [splitFormName?, Option.filter_eq_some_iff]
      refine ⟨splitName?_eq_some_iff.mpr ⟨by simp, by simp [hne], fun c hc => ?_, rfl⟩,
        isFormName_iff.mpr ⟨stem, hne, rfl⟩⟩
      rcases List.mem_append.mp hc with hc | hc
      · exact hword c hc
      · exact List.all_eq_true.mp (by rfl : formEnding.all isWord = true) c hc
    have hbraces : after? ['}', '}'] (closingBraces ++ rest) = some rest :=
      after?_append closingBraces rest
    rw [formClosingTag, Pattern.split?_marked_append (append_of_closedBy? append_of_splitFormName?),
      Option.isSome_map, closedBy?, hname]
    simp [hbraces]

end Closing

/-! ### Form blocks -/

/-- A form block as one regular expression. -/
def formBlockParts : List Regex :=
  [Head.form.regex, .fewest fun _ => true, formClosingRegex]

section Blocks

variable {source : List Char}

private theorem occursIn_formBlockParts_iff :
    OccursIn formBlockParts source ↔
      ∃ i, ∃ j ∈ Head.form.regex.stops source i, ∃ k, j ≤ k ∧
        formClosingRegex.stops source k ≠ [] := by
  simp only [OccursIn, formBlockParts, groupings_cons_ne_nil]
  refine exists_congr fun i => exists_congr fun j => and_congr_right fun _ => ?_
  constructor
  · rintro ⟨k, hk, l, hl, -⟩
    exact ⟨k, (mem_stops_fewest.mp hk).le, List.ne_nil_of_mem hl⟩
  · rintro ⟨k, hle, hclosing⟩
    obtain ⟨l, hl⟩ := List.exists_mem_of_ne_nil _ hclosing
    have hk : k ≤ source.length := by
      obtain ⟨stem, rest, htext, -⟩ := stops_formClosing_ne_nil_iff.mp hclosing
      by_contra hlt
      rw [List.drop_eq_nil_of_le (by omega)] at htext
      simp at htext
    exact ⟨k, mem_stops_fewest.mpr (.of_le_length hle hk), l, hl, by simp [Regex.groupings]⟩

/-- Behind its two braces the head of a form holds no opening brace. So a closing tag that follows
one head, at whatever place that one ends, also follows every head that begins earlier. -/
private theorem stop_le_of_closing {i j k m n : Nat} (h : n ∈ Head.form.regex.stops source m)
    (hother : j ∈ Head.form.regex.stops source i) (hle : m ≤ i) (hjk : j ≤ k)
    (hclosing : BeginsWithFormClosing (source.drop k)) : n ≤ k := by
  obtain ⟨-, hfree⟩ := Head.spells_of_named (by decide) h
  obtain ⟨-, hother⟩ := Head.spells_of_named (by decide) hother
  have hj := hother.le
  obtain ⟨stem, rest, htext, -⟩ := hclosing
  by_contra hlt
  have hbrace := hfree.of_drop_eq_cons (by omega) (by omega) htext
  exact absurd hbrace (by decide)

/-- A search finds the first head: no way to match begins before it. -/
private theorem Head.exists_find?_of_mem_stops {head : Head} {i j : Nat}
    (h : j ∈ head.regex.stops source i) :
    ∃ o, head.pattern.find? 0 source = some o ∧ o.start ≤ i := by
  obtain ⟨o, hfind, hle⟩ :=
    Pattern.exists_find?_append (Head.isSome_split?_of_mem_stops h) 0 (source.take i)
  rw [List.take_append_drop] at hfind
  rw [List.length_take] at hle
  exact ⟨o, hfind, by omega⟩

/-- **A form block is found if there is one**: it is enough to look behind the first head. -/
theorem hasFormBlock_iff :
    hasFormBlock source ↔
      ∃ i, ∃ j ∈ Head.form.regex.stops source i, ∃ k, j ≤ k ∧
        formClosingRegex.stops source k ≠ [] := by
  simp only [stops_formClosing_ne_nil_iff]
  rcases hfind : Head.form.pattern.find? 0 source with _ | o
  · rw [hasFormBlock, hfind]
    refine iff_of_false Bool.false_ne_true ?_
    rintro ⟨i, j, hj, -⟩
    obtain ⟨o, hsome, -⟩ := Head.exists_find?_of_mem_stops hj
    simp [hfind] at hsome
  · have hfirst : Head.form.pattern.find? 0 (source.drop 0) = some o := hfind
    have hrest := Pattern.drop_stop_of_find? hfirst
    have hstop : o.stop ∈ Head.form.regex.stops source o.start :=
      Head.mem_stops_of_split? (Pattern.split?_of_find? hfirst).1
    rw [hasFormBlock, hfind, Pattern.matchesIn_iff]
    simp only [isSome_split?_formClosingTag_iff]
    constructor
    · rintro ⟨before, rest, htext, hclosing⟩
      refine ⟨o.start, o.stop, hstop, o.stop + before.length, Nat.le_add_right _ _, ?_⟩
      rwa [drop_add_length (hrest.trans htext)]
    · rintro ⟨i, j, hj, k, hjk, hclosing⟩
      have hle : o.start ≤ i := by
        obtain ⟨first, hsome, hle⟩ := Head.exists_find?_of_mem_stops hj
        obtain rfl : o = first := Option.some.inj (hfind.symm.trans hsome)
        exact hle
      obtain ⟨d, rfl⟩ := Nat.exists_eq_add_of_le (stop_le_of_closing hstop hj hle hjk hclosing)
      refine ⟨o.rest.take d, o.rest.drop d, (List.take_append_drop d o.rest).symm, ?_⟩
      rwa [← hrest, List.drop_drop]

end Blocks

/-! ### Self-closing forms -/

/-- A self-closing form as one regular expression. -/
def selfClosingFormParts : List Regex :=
  [Head.wholeForm.regex, .most (· != '}'), .literal ['/', '}']]

section SelfClosing

variable {source : List Char}

private theorem occursIn_selfClosingFormParts_iff :
    OccursIn selfClosingFormParts source ↔
      ∃ i, ∃ j ∈ Head.wholeForm.regex.stops source i, ∃ run rest,
        source.drop j = run ++ '/' :: '}' :: rest ∧ '}' ∉ run := by
  simp only [OccursIn, selfClosingFormParts, groupings_cons_ne_nil, mem_stops_most]
  refine exists_congr fun i => exists_congr fun j => and_congr_right fun _ => ?_
  constructor
  · rintro ⟨k, ⟨run, hrun, rfl, hfree⟩, l, hl, -⟩
    obtain ⟨⟨rest, hrest⟩, -⟩ := mem_stops_literal.mp hl
    exact ⟨run, rest, by rw [hrun, hrest]; rfl, forall_bne_closeBrace_iff.mp hfree⟩
  · rintro ⟨run, rest, htext, hfree⟩
    exact ⟨_, .of_append htext (forall_bne_closeBrace_iff.mpr hfree), _,
      mem_stops_literal.mpr ⟨⟨rest, drop_add_length htext⟩, rfl⟩, by simp [Regex.groupings]⟩

/-- The first head before a closing brace matches in the whole template what it matches up to the
brace. -/
private theorem exists_selfClosing_of_markerIn? {stretch : Stretch} {m : Marker}
    (hstretch : stretch ∈ stretches source)
    (h : MarkerForm.markerIn? ⟨.wholeForm, ['}'], false⟩ stretch = some m)
    (hslash : ['/'].isSuffixOf m.body) :
    ∃ i, ∃ j ∈ Head.wholeForm.regex.stops source i, ∃ run rest,
      source.drop j = run ++ '/' :: '}' :: rest ∧ '}' ∉ run := by
  obtain ⟨hdrop, hfree⟩ := drop_of_mem_stretchesFrom List.drop_zero hstretch
  obtain ⟨o, hfind, -, rfl⟩ := MarkerForm.markerIn?_eq_some_iff.mp h
  obtain ⟨run, hrun⟩ : ['/'] <:+ o.rest := List.isSuffixOf_iff_suffix.mp hslash
  have hsearch := Pattern.find?_append_brace Head.wholeForm.stopsAtBrace stretch.start hfree
    stretch.later
  rw [hfind, Option.map_some, Option.some_or, ← hdrop] at hsearch
  refine ⟨o.start, o.stop, Head.mem_stops_of_split? (Pattern.split?_of_find? hsearch).1, run,
    stretch.later, ?_, ?_⟩
  · have hrest : source.drop o.stop = o.rest ++ '}' :: stretch.later :=
      Pattern.drop_stop_of_find? hsearch
    rw [hrest, ← hrun, List.append_assoc]
    rfl
  · obtain ⟨before, htext, -⟩ := Pattern.find?_eq_some hfind
    intro hmem
    refine hfree (htext ▸ List.mem_append_right _ ?_)
    exact hrun ▸ List.mem_append_left _ hmem

/-- A head holds no slash, so a slash that stands last before a closing brace stands behind every
head before the brace. -/
private theorem suffix_slash_of_find? {pos : Nat} {text : List Char} {o : Occurrence}
    (h : Head.wholeForm.pattern.find? pos text = some o) (hslash : ['/'] <:+ text) :
    ['/'] <:+ o.rest := by
  obtain ⟨before, rfl, -, hsplit⟩ := Pattern.find?_eq_some h
  refine List.suffix_of_suffix_length_le hslash (List.suffix_append _ _) ?_
  by_contra hlength
  have hnil : o.rest = [] := List.eq_nil_of_length_eq_zero (by simpa using hlength)
  have hmatched : ['/'] <:+ o.matched := by
    rw [hnil, List.append_nil] at hslash
    exact List.suffix_of_suffix_length_le hslash (List.suffix_append _ _)
      (List.length_pos_iff.mpr (Head.wholeForm.pattern.ne_nil hsplit))
  exact absurd (Head.admits_of_split? hsplit '/' (hmatched.subset (by simp))) (by decide)

private theorem exists_markerIn?_of_selfClosing {i j : Nat} {run rest : List Char}
    (hj : j ∈ Head.wholeForm.regex.stops source i)
    (hrun : source.drop j = run ++ '/' :: '}' :: rest) (hfree : '}' ∉ run) :
    ∃ stretch ∈ stretches source, ∃ m,
      MarkerForm.markerIn? ⟨.wholeForm, ['}'], false⟩ stretch = some m ∧
        ['/'].isSuffixOf m.body := by
  obtain ⟨matched, hmatched, -, hbrace⟩ := Head.spells_of_mem_stops hj
  have hpiece : '}' ∉ matched ++ (run ++ ['/']) := by
    simp [forall_bne_closeBrace_iff.mp hbrace, hfree]
  have hdrop : source.drop i = matched ++ (run ++ ['/']) ++ '}' :: rest := by
    simp [hmatched, hrun]
  have hsource : source = source.take i ++ (matched ++ (run ++ ['/']) ++ '}' :: rest) := by
    rw [← hdrop, List.take_append_drop]
  obtain ⟨stretch, hstretch, -, before, hbefore⟩ := exists_mem_stretchesFrom hpiece 0 hsource
  -- the head matches in its stretch, so there is a first one there
  have hhead : (Head.wholeForm.pattern.split? (matched ++ (run ++ ['/']))).isSome := by
    have hsome := Head.isSome_split?_of_mem_stops hj
    rwa [hdrop, Head.wholeForm.stopsAtBrace _ _ hpiece, Option.isSome_map] at hsome
  obtain ⟨o, hfind, -⟩ := Pattern.exists_find?_append hhead stretch.start before
  rw [hbefore] at hfind
  refine ⟨stretch, hstretch, _, MarkerForm.markerIn?_eq_some_iff.mpr
    ⟨o, hfind, by simp [MarkerForm.accepts], rfl⟩, ?_⟩
  refine List.isSuffixOf_iff_suffix.mpr (suffix_slash_of_find? hfind ?_)
  exact ⟨before ++ (matched ++ run), by simp [← hbefore]⟩

/-- **A self-closing form is found if there is one**: it is enough to look at the first head before
each closing brace. -/
theorem hasSelfClosingForm_iff :
    hasSelfClosingForm source ↔
      ∃ i, ∃ j ∈ Head.wholeForm.regex.stops source i, ∃ run rest,
        source.drop j = run ++ '/' :: '}' :: rest ∧ '}' ∉ run := by
  rw [hasSelfClosingForm, List.any_eq_true, MarkerForm.markers_eq_filterMap (by simp)]
  constructor
  · rintro ⟨m, hm, hslash⟩
    obtain ⟨stretch, hstretch, hmarker⟩ := List.mem_filterMap.mp hm
    exact exists_selfClosing_of_markerIn? hstretch hmarker hslash
  · rintro ⟨i, j, hj, run, rest, hrun, hfree⟩
    obtain ⟨stretch, hstretch, m, hmarker, hslash⟩ :=
      exists_markerIn?_of_selfClosing hj hrun hfree
    exact ⟨m, List.mem_filterMap.mpr ⟨stretch, hstretch, hmarker⟩, hslash⟩

end SelfClosing

/-! ### The rule -/

/-- **The rule about forms reports exactly the templates in which neither expression for a form
matches anywhere.** The two searches behind it find a head at whatever offset and of whatever
length, if what has to follow does follow it. -/
theorem noForms_check_iff (options : Options) (source : List Char) :
    (Rule.noForms.check options source =
        .ok [Catalogue.noForms.worded Catalogue.noForms.message none] ↔
      ¬ OccursIn formBlockParts source ∧ ¬ OccursIn selfClosingFormParts source) ∧
    (Rule.noForms.check options source = .ok [] ↔
      OccursIn formBlockParts source ∨ OccursIn selfClosingFormParts source) ∧
    (hasFormBlock source ↔
      ∃ i, ∃ j ∈ Head.form.regex.stops source i, ∃ k, j ≤ k ∧
        formClosingRegex.stops source k ≠ []) ∧
    (hasSelfClosingForm source ↔
      ∃ i, ∃ j ∈ Head.wholeForm.regex.stops source i, ∃ run rest,
        source.drop j = run ++ '/' :: '}' :: rest ∧ '}' ∉ run) := by
  have hform : hasForm source ↔
      OccursIn formBlockParts source ∨ OccursIn selfClosingFormParts source := by
    rw [hasForm, Bool.or_eq_true, hasFormBlock_iff, hasSelfClosingForm_iff,
      occursIn_formBlockParts_iff, occursIn_selfClosingFormParts_iff]
  have hcheck : Rule.noForms.check options source = .ok (Catalogue.noForms.when !hasForm source) :=
    Kind.noForms.check_rule options source
  refine ⟨?_, ?_, hasFormBlock_iff, hasSelfClosingForm_iff⟩
  · rw [← not_or, ← hform, hcheck, Spec.when]
    by_cases h : hasForm source <;> simp [h]
  · rw [← hform, hcheck, Spec.when]
    by_cases h : hasForm source <;> simp [h]

end Markup

end TemplateLint
