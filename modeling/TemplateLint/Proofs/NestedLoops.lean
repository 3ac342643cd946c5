import Mathlib.Order.Bounds.Basic
import TemplateLint.Markup.Loop
import TemplateLint.Proofs.MarkerScan

/-!
# The search for nested loops

`NestedTags` is what nested loops look like in a template: two loop tags and behind them two closing
tags of loops, each of them any match of its expression, whether a scan from left to right would
take it or not. `nestedLoop?_isLeast` says that `nestedLoop?` finds such tags exactly if there are
any, and that no such tags begin earlier or end earlier than what it reports.

The search settles for the earliest candidate four times and never goes back. It may, because a
candidate that begins first also ends first (`IsEarliest`): all loop tags before a closing brace
share that brace, and closing tags are all of one length. So the room behind a candidate is never
less than the room behind any other one.
-/

namespace TemplateLint.Markup

open TemplateLint.Text

/-! ### Matches anywhere -/

/-- The characters of a span are a match, though perhaps not one that a search would take. -/
def MatchesAt (parts : List Regex) (source : List Char) (span : Span) : Prop :=
  ∃ groups ∈ Regex.groupings source parts span.start,
    span.stop = span.start + groups.flatten.length

section Matches

variable {source : List Char} {i k : Nat}

/-- A match of a literal is the literal. -/
theorem matchesAt_literal_iff {mark : List Char} {span : Span} :
    MatchesAt [.literal mark] source span ↔
      mark <+: source.drop span.start ∧ span.stop = span.start + mark.length := by
  rw [MatchesAt, groupings_literal]
  split
  · next hmark =>
    have hmark := List.isPrefixOf_iff_prefix.mp hmark
    simp [hmark]
  · next hmark =>
    have hmark := mt List.isPrefixOf_iff_prefix.mpr hmark
    simp [hmark]

/-- The rest of a text has no more behind its first closing brace than the text has. -/
private theorem length_fromBrace_le (source : List Char) (h : i ≤ k) :
    (fromBrace source k).length ≤ (fromBrace source i).length := by
  have hdrop : ∀ (text : List Char) (d : Nat),
      ((text.drop d).dropWhile (· != '}')).length ≤ (text.dropWhile (· != '}')).length := by
    intro text d
    induction text generalizing d with
    | nil => simp
    | cons c text ih =>
      cases d with
      | zero => simp
      | succ d =>
        rw [List.drop_succ_cons, List.dropWhile_cons]
        split
        · exact ih d
        · have hsuffix := (List.dropWhile_suffix (l := text.drop d) (· != '}')).length_le
          rw [List.length_drop] at hsuffix
          rw [List.length_cons]
          omega
  obtain ⟨d, rfl⟩ := Nat.exists_eq_add_of_le h
  rw [fromBrace, fromBrace, ← List.drop_drop]
  exact hdrop (source.drop i) d

/-- Every marker closes at the first closing brace at or after its start. -/
private theorem MarkerForm.stop_of_matchesAt {form : MarkerForm}
    (hclose : form.close.head? = some '}') {span : Span} (h : MatchesAt form.parts source span) :
    span.stop + (fromBrace source span.start).length = source.length + form.close.length := by
  obtain ⟨groups, hgroups, hstop⟩ := h
  rw [form.groupings_parts hclose, List.mem_flatMap] at hgroups
  obtain ⟨j, hj, hgroups⟩ := hgroups
  split at hgroups
  · next haccepts =>
    obtain rfl := List.mem_singleton.mp hgroups
    have hspells := Head.spells_of_mem_stops hj
    have hle := hspells.le
    have hlength := congrArg List.length
      (List.takeWhile_append_dropWhile (p := (· != '}')) (l := source.drop j))
    -- the closing text stands there, so the head ends inside the template
    have hbrace : 0 < ((source.drop j).dropWhile (· != '}')).length := by
      rw [accepts, Bool.and_eq_true] at haccepts
      have hprefix := (List.isPrefixOf_iff_prefix.mp haccepts.1).length_le
      obtain ⟨later, hlater⟩ := List.head?_eq_some_iff.mp hclose
      rw [hlater, List.length_cons] at hprefix
      omega
    rw [fromBrace_eq_of_spells hspells, fromBrace, hstop]
    simp only [List.flatten_cons, List.flatten_nil, List.append_nil, List.length_append,
      List.length_take, List.length_drop] at hlength ⊢
    omega
  · simp at hgroups

end Matches

/-! ### The earliest candidate -/

/-- What a search from an offset on finds is of the right kind, and nothing of that kind from there
on begins earlier or ends earlier. -/
def IsEarliest (P : Span → Prop) (offset : Nat) (found : Option Span) : Prop :=
  (∀ span ∈ found, P span ∧ offset ≤ span.start) ∧
    ∀ other, P other → offset ≤ other.start →
      ∃ span ∈ found, span.start ≤ other.start ∧ span.stop ≤ other.stop

/-- The closing tag of a loop as a regular expression. -/
def loopEndParts : List Regex :=
  [.literal ['{', '{', '/', 'f', 'o', 'r', '}', '}']]

theorem isEarliest_nextLoopTag? (source : List Char) (offset : Nat) :
    IsEarliest (MatchesAt loopTag.parts source) offset
      ((nextLoopTag? source offset).map Marker.span) := by
  have hscan : LeftmostMatches loopTag.parts source offset
      ((loopTag.markers source offset).map Marker.toMatch) :=
    loopTag.leftmostMatches_markersFrom rfl (by decide) source offset rfl
  rw [nextLoopTag?]
  cases hmarkers : loopTag.markers source offset with
  | nil =>
    rw [hmarkers] at hscan
    cases hscan with
    | nil hnone =>
      refine ⟨by simp, fun other hother hle => ?_⟩
      obtain ⟨groups, hgroups, -⟩ := hother
      rw [hnone _ hle] at hgroups
      simp at hgroups
  | cons m later =>
    rw [hmarkers, List.map_cons] at hscan
    cases hscan with
    | cons hle hnone hfirst _ =>
      have hmatch : MatchesAt loopTag.parts source m.span :=
        ⟨_, List.mem_of_head? hfirst, by simp [Marker.toMatch, Marker.stop, Marker.text]⟩
      refine ⟨by simpa using ⟨hmatch, hle⟩, fun other hother hstart => ⟨m.span, by simp, ?_⟩⟩
      have hbegins : m.start ≤ other.start := by
        obtain ⟨groups, hgroups, -⟩ := hother
        rcases Nat.lt_or_ge other.start m.start with hlt | hge
        · rw [hnone _ hstart hlt] at hgroups
          simp at hgroups
        · exact hge
      -- the later of the two cannot close at an earlier brace
      have hthis := MarkerForm.stop_of_matchesAt rfl hmatch
      have hthat := MarkerForm.stop_of_matchesAt rfl hother
      have hbraces := length_fromBrace_le source hbegins
      rw [Marker.span_start] at hthis ⊢
      exact ⟨hbegins, by omega⟩

theorem isEarliest_nextLoopEnd? (source : List Char) (offset : Nat) :
    IsEarliest (MatchesAt loopEndParts source) offset
      ((nextLoopEnd? source offset).map Occurrence.span) := by
  have hsplit : ∀ {i : Nat}, loopClosingTag.split? (source.drop i) = none →
      ¬ ['{', '{', '/', 'f', 'o', 'r', '}', '}'] <+: source.drop i := by
    rintro i h ⟨rest, hrest⟩
    rw [loopClosingTag, (Pattern.split?_literal_eq_some_iff (by decide)).mpr ⟨rfl, hrest.symm⟩] at h
    simp at h
  rw [nextLoopEnd?]
  cases hfind : loopClosingTag.find? offset (source.drop offset) with
  | none =>
    refine ⟨by simp, fun other hother hle => ?_⟩
    exact absurd (matchesAt_literal_iff.mp hother).1
      (hsplit (Pattern.split?_eq_none_of_find? hfind hle))
  | some o =>
    obtain ⟨hhere, hbefore⟩ := Pattern.split?_of_find? hfind
    obtain ⟨hmatched, hdrop⟩ := (Pattern.split?_literal_eq_some_iff (by decide)).mp hhere
    have hmatch : MatchesAt loopEndParts source o.span :=
      matchesAt_literal_iff.mpr ⟨⟨o.rest, hdrop.symm⟩, by rw [← hmatched]; rfl⟩
    refine ⟨by simpa using ⟨hmatch, Pattern.le_start hfind⟩, fun other hother hle => ?_⟩
    have hbegins : o.start ≤ other.start := by
      rcases Nat.lt_or_ge other.start o.start with hlt | hge
      · exact absurd (matchesAt_literal_iff.mp hother).1 (hsplit (hbefore _ hle hlt))
      · exact hge
    have hthis := (matchesAt_literal_iff.mp hmatch).2
    have hthat := (matchesAt_literal_iff.mp hother).2
    have hstart : o.span.start = o.start := rfl
    exact ⟨o.span, by simp, hbegins, by omega⟩

/-! ### The four tags -/

/-- Two loop tags and behind them two closing tags of loops, none of the four overlapping the one
before it. -/
structure NestedTags (source : List Char) where
  outer : Span
  inner : Span
  innerEnd : Span
  outerEnd : Span
  outer_matches : MatchesAt loopTag.parts source outer
  inner_matches : MatchesAt loopTag.parts source inner
  innerEnd_matches : MatchesAt loopEndParts source innerEnd
  outerEnd_matches : MatchesAt loopEndParts source outerEnd
  outer_le_inner : outer.stop ≤ inner.start
  inner_le_innerEnd : inner.stop ≤ innerEnd.start
  innerEnd_le_outerEnd : innerEnd.stop ≤ outerEnd.start

variable {source : List Char}

/-- What is reported are the ends of four such tags. -/
private theorem exists_nestedTags_of_nestedLoop? {span : Span}
    (h : nestedLoop? source = some span) :
    ∃ tags : NestedTags source,
      tags.outer.start = span.start ∧ tags.outerEnd.stop = span.stop := by
  obtain ⟨outer, inner, innerEnd, outerEnd, houter, hinner, hinnerEnd, houterEnd, hstart, hstop⟩ :=
    nestedLoop?_eq_some_iff.mp h
  have h₁ := (isEarliest_nextLoopTag? source 0).1 outer.span (by simp [houter])
  have h₂ := (isEarliest_nextLoopTag? source outer.stop).1 inner.span (by simp [hinner])
  have h₃ := (isEarliest_nextLoopEnd? source inner.stop).1 innerEnd.span (by simp [hinnerEnd])
  have h₄ := (isEarliest_nextLoopEnd? source innerEnd.stop).1 outerEnd.span (by simp [houterEnd])
  exact ⟨⟨outer.span, inner.span, innerEnd.span, outerEnd.span, h₁.1, h₂.1, h₃.1, h₄.1, h₂.2, h₃.2,
    h₄.2⟩, hstart.symm, hstop.symm⟩

/-- Where there are four such tags something is reported, and it neither begins nor ends behind
them: each candidate taken leaves room for the rest of them. -/
private theorem NestedTags.exists_nestedLoop? (tags : NestedTags source) :
    ∃ span, nestedLoop? source = some span ∧
      span.start ≤ tags.outer.start ∧ span.stop ≤ tags.outerEnd.stop := by
  obtain ⟨_, hspan, houter⟩ :=
    (isEarliest_nextLoopTag? source 0).2 _ tags.outer_matches (Nat.zero_le _)
  obtain ⟨outer, hfirst, rfl⟩ := Option.map_eq_some_iff.mp hspan
  have hroom := tags.outer_le_inner
  obtain ⟨_, hspan, hinner⟩ :=
    (isEarliest_nextLoopTag? source outer.stop).2 _ tags.inner_matches (houter.2.trans hroom)
  obtain ⟨inner, hsecond, rfl⟩ := Option.map_eq_some_iff.mp hspan
  have hroom := tags.inner_le_innerEnd
  obtain ⟨_, hspan, hinnerEnd⟩ :=
    (isEarliest_nextLoopEnd? source inner.stop).2 _ tags.innerEnd_matches (hinner.2.trans hroom)
  obtain ⟨innerEnd, hthird, rfl⟩ := Option.map_eq_some_iff.mp hspan
  have hroom := tags.innerEnd_le_outerEnd
  obtain ⟨_, hspan, houterEnd⟩ :=
    (isEarliest_nextLoopEnd? source innerEnd.stop).2 _ tags.outerEnd_matches
      (hinnerEnd.2.trans hroom)
  obtain ⟨outerEnd, hfourth, rfl⟩ := Option.map_eq_some_iff.mp hspan
  cases hloop : nestedLoop? source with
  | none =>
    rw [nestedLoop?_eq_none_iff.mp hloop outer inner innerEnd hfirst hsecond hthird] at hfourth
    simp at hfourth
  | some span =>
    obtain ⟨outer', inner', innerEnd', outerEnd', h₁, h₂, h₃, h₄, hstart, hstop⟩ :=
      nestedLoop?_eq_some_iff.mp hloop
    obtain rfl : outer = outer' := Option.some.inj (hfirst.symm.trans h₁)
    obtain rfl : inner = inner' := Option.some.inj (hsecond.symm.trans h₂)
    obtain rfl : innerEnd = innerEnd' := Option.some.inj (hthird.symm.trans h₃)
    obtain rfl : outerEnd = outerEnd' := Option.some.inj (hfourth.symm.trans h₄)
    exact ⟨span, rfl, hstart ▸ houter.1, hstop ▸ houterEnd.2⟩

/-- **Nested loops are found exactly if there are two loop tags followed by two closing tags**, and
then the span that is reported begins at the least offset at which such tags begin and ends at the
least offset at which such tags end. -/
theorem nestedLoop?_isLeast (source : List Char) :
    (nestedLoop? source ≠ none ↔ Nonempty (NestedTags source)) ∧
      ∀ span, nestedLoop? source = some span →
        IsLeast (Set.range fun tags : NestedTags source => tags.outer.start) span.start ∧
          IsLeast (Set.range fun tags : NestedTags source => tags.outerEnd.stop) span.stop := by
  refine ⟨⟨fun h => ?_, fun ⟨tags⟩ => ?_⟩, fun span hspan => ?_⟩
  · obtain ⟨span, hspan⟩ := Option.ne_none_iff_exists'.mp h
    obtain ⟨tags, -⟩ := exists_nestedTags_of_nestedLoop? hspan
    exact ⟨tags⟩
  · obtain ⟨span, hspan, -⟩ := tags.exists_nestedLoop?
    simp [hspan]
  · obtain ⟨tags, hstart, hstop⟩ := exists_nestedTags_of_nestedLoop? hspan
    -- any other tags lead to the same report, which does not lie behind them
    have hleast : ∀ other : NestedTags source,
        span.start ≤ other.outer.start ∧ span.stop ≤ other.outerEnd.stop := by
      intro other
      obtain ⟨span', hspan', hle⟩ := other.exists_nestedLoop?
      obtain rfl : span = span' := Option.some.inj (hspan.symm.trans hspan')
      exact hle
    constructor
    · refine ⟨⟨tags, hstart⟩, ?_⟩
      rintro _ ⟨other, rfl⟩
      exact (hleast other).1
    · refine ⟨⟨tags, hstop⟩, ?_⟩
      rintro _ ⟨other, rfl⟩
      exact (hleast other).2

end TemplateLint.Markup
