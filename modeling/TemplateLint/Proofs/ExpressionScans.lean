import Mathlib.Data.Fintype.Card
import Mathlib.Data.List.NodupEquivFin
import TemplateLint.Proofs.Anchors
import TemplateLint.Proofs.Stretches

/-!
# Property accesses and raw outputs among the expressions

Three scans look for braces around something: one for expressions, one for those that follow a
chain of properties, and one for raw outputs. They differ in their heads, in their closing texts and
in whether a body may be empty, and each goes on at an offset of its own.

* `propertyAccesses_matches`: property accesses are the expressions with a dot inside, and they are
  the leftmost matches of one expression.
* `rawOutputs_embed`: raw outputs are the leftmost matches of a regular expression of their own
  (`leftmostMatches_rawOutputs`), and go into the expressions one by one, in their order, so that
  subtracting the one count from the other counts the expressions that are left.

Both come down to one stretch between closing braces. There is at most one marker of each kind in
it, and the later of two heads never sees more of the body than the earlier one.
-/

namespace TemplateLint

open TemplateLint.Markup TemplateLint.Text

namespace Markup

/-! ### Bodies that may not be empty -/

/-- A scan that asks for a body leaves out the markers without one and finds no others. -/
theorem MarkerForm.markers_nonempty (head : Head) {close : List Char}
    (hclose : ∀ c ∈ close, c = '}') (source : List Char) :
    MarkerForm.markers ⟨head, close, true⟩ source =
      (MarkerForm.markers ⟨head, close, false⟩ source).filter fun m => !m.body.isEmpty := by
  rw [markers_eq_filterMap hclose, markers_eq_filterMap hclose, List.filter_filterMap]
  congr 1
  funext stretch
  rw [markerIn?, markerIn?]
  rcases head.pattern.find? stretch.start stretch.text with _ | o
  · rfl
  · by_cases hcloses : close.isPrefixOf ('}' :: stretch.later) <;>
      by_cases hbody : o.rest = [] <;> simp [accepts, hcloses, hbody, Option.filter]

/-! ### Property accesses -/

/-- A dot stands inside a text if something stands before it and something behind it. -/
theorem hasInnerDot_iff {body : List Char} :
    hasInnerDot body ↔
      ∃ before later, body = before ++ '.' :: later ∧ before ≠ [] ∧ later ≠ [] := by
  rw [hasInnerDot, List.contains_iff_mem]
  constructor
  · intro hmem
    rcases body with _ | ⟨first, body⟩
    · simp at hmem
    rcases List.eq_nil_or_concat body with rfl | ⟨body, last, rfl⟩
    · simp at hmem
    rw [List.concat_eq_append, List.drop_succ_cons, List.drop_zero, List.dropLast_concat] at hmem
    obtain ⟨front, back, rfl⟩ := List.append_of_mem hmem
    exact ⟨first :: front, back ++ [last], by simp, by simp, by simp⟩
  · rintro ⟨before, later, rfl, hbefore, hlater⟩
    rcases before with _ | ⟨c, before⟩
    · exact absurd rfl hbefore
    · rw [List.cons_append, List.drop_succ_cons, List.drop_zero,
        List.dropLast_append_of_ne_nil (by simp), List.dropLast_cons_of_ne_nil hlater]
      simp

/-- More text in front does not take a dot out of the inside. -/
private theorem hasInnerDot_of_suffix {body tail : List Char} (hsuffix : tail <:+ body)
    (h : hasInnerDot tail) : hasInnerDot body := by
  obtain ⟨front, rfl⟩ := hsuffix
  obtain ⟨before, later, rfl, hbefore, hlater⟩ := hasInnerDot_iff.mp h
  exact hasInnerDot_iff.mpr
    ⟨front ++ before, later, by rw [List.append_assoc], by simp [hbefore], hlater⟩

theorem propertyAccesses_eq_filter (source : List Char) :
    propertyAccesses source = (expressions source).filter fun m => hasInnerDot m.body := by
  rw [propertyAccesses, MarkerForm.markers_nonempty .expression (by simp [closingBraces]),
    List.filter_filter, expressions]
  refine List.filter_congr fun m _ => ?_
  rcases hdot : hasInnerDot m.body with _ | _
  · rfl
  · have hne : m.body ≠ [] := by
      intro hnil
      simp [hnil, hasInnerDot] at hdot
    simp [hne]

/-- A property access as one regular expression. -/
def propertyAccessParts : List Regex :=
  [.literal ['{', '{'], .oneOrMore (· != '}'), .literal ['.'], .oneOrMore (· != '}'),
    .literal closingBraces]

/-- Two braces, a body without closing braces and two closing braces stand at an offset. -/
def ExpressionAt (source : List Char) (i : Nat) (body : List Char) : Prop :=
  '}' ∉ body ∧ ∃ rest, source.drop i = ['{', '{'] ++ (body ++ '}' :: '}' :: rest)

section ExpressionAt

variable {source body other : List Char} {i j : Nat}

theorem expressionAt_of_mem {m : Marker} (h : m ∈ expressions source) :
    ExpressionAt source m.start m.body := by
  obtain ⟨htext, hbody⟩ := text_of_mem_expressionMarkers h
  obtain ⟨rest, hrest⟩ := MarkerForm.standsAt_of_mem h
  exact ⟨hbody, rest, by rw [← hrest, htext]; simp⟩

private theorem groupings_expression_ne_nil (h : ExpressionAt source i body) :
    Regex.groupings source expressionParts i ≠ [] := by
  obtain ⟨hbody, rest, htext⟩ := h
  have hchars := forall_bne_closeBrace_iff.mpr hbody
  have hhead : ('}' :: '}' :: rest).head?.any (· != '}') = false := rfl
  rw [expressionParts, groupings_cons_ne_nil]
  refine ⟨_, mem_stops_literal.mpr ⟨⟨_, htext⟩, rfl⟩, ?_⟩
  rw [closingBraces, groupings_most_literal (p := (· != '}')) rfl, drop_add_length htext,
    dropWhile_append_of_head? hchars hhead]
  simp

/-- The ways to match a property access: one for each dot inside the body. -/
private theorem mem_groupings_propertyAccess {groups : List (List Char)} :
    groups ∈ Regex.groupings source propertyAccessParts i ↔
      ∃ before later, ExpressionAt source i (before ++ '.' :: later) ∧ before ≠ [] ∧ later ≠ [] ∧
        groups = [['{', '{'], before, ['.'], later, closingBraces] := by
  simp only [propertyAccessParts, mem_groupings_literal_cons, mem_groupings_oneOrMore_cons,
    forall_bne_closeBrace_iff]
  constructor
  · rintro ⟨text, _, htext, ⟨before, text₁, _, h₁, hne, hbefore,
      ⟨text₂, _, h₂, ⟨later, text₃, _, h₃, hne', hlater,
        ⟨rest, _, h₄, hnil, rfl⟩, rfl⟩, rfl⟩, rfl⟩, rfl⟩
    -- each part begins where the one before it ends
    obtain rfl : text = before ++ text₁ := (drop_add_length htext).symm.trans h₁
    obtain rfl : text₁ = ['.'] ++ text₂ := (drop_add_length h₁).symm.trans h₂
    obtain rfl : text₂ = later ++ text₃ := (drop_add_length h₂).symm.trans h₃
    obtain rfl : text₃ = closingBraces ++ rest := (drop_add_length h₃).symm.trans h₄
    rw [List.mem_singleton.mp hnil]
    refine ⟨before, later, ⟨by simp [hbefore, hlater], rest, ?_⟩, hne, hne', rfl⟩
    rw [htext]
    simp [closingBraces]
  · rintro ⟨before, later, ⟨hbody, rest, htext⟩, hne, hne', rfl⟩
    simp only [List.mem_append, List.mem_cons, not_or] at hbody
    have h₀ : source.drop i =
        ['{', '{'] ++ (before ++ (['.'] ++ (later ++ (closingBraces ++ rest)))) := by
      rw [htext]
      simp [closingBraces]
    have h₁ := drop_add_length h₀
    have h₂ := drop_add_length h₁
    have h₃ := drop_add_length h₂
    exact ⟨_, _, h₀, ⟨before, _, _, h₁, hne, hbody.1,
      ⟨_, _, h₂, ⟨later, _, _, h₃, hne', hbody.2.2,
        ⟨rest, [], drop_add_length h₃, List.mem_singleton_self _, rfl⟩, rfl⟩, rfl⟩, rfl⟩, rfl⟩

theorem ExpressionAt.unique (h : ExpressionAt source i body)
    (hother : ExpressionAt source i other) : body = other := by
  obtain ⟨hbody, rest, htext⟩ := h
  obtain ⟨hother, rest', htext'⟩ := hother
  rw [htext, List.append_cancel_left_eq] at htext'
  exact (append_brace_inj hbody hother htext').1

/-- What begins inside an expression and has the same form ends with it, so its body is an end of
the other one. -/
theorem ExpressionAt.suffix (h : ExpressionAt source i body) (hother : ExpressionAt source j other)
    (hle : i ≤ j) (hlt : j < i + body.length + 4) : other <:+ body := by
  obtain ⟨hbody, rest, htext⟩ := h
  obtain ⟨hother, rest', htext'⟩ := hother
  obtain ⟨k, rfl⟩ := Nat.exists_eq_add_of_le hle
  rw [← List.drop_drop, htext, ← List.append_assoc] at htext'
  rcases Nat.lt_or_ge k (['{', '{'] ++ body).length with hk | hk
  · rw [List.drop_append_of_le_length (by omega), ← List.append_assoc] at htext'
    have hfront : '}' ∉ (['{', '{'] ++ body).drop k := by
      intro hmem
      simpa [hbody] using List.mem_of_mem_drop hmem
    obtain ⟨hpiece, -⟩ := append_brace_inj hfront (by simpa using hother) htext'
    have hsuffix : other <:+ ['{', '{'] ++ body := by
      refine List.IsSuffix.trans ?_ (List.drop_suffix k _)
      rw [hpiece]
      exact List.suffix_append _ _
    refine List.suffix_of_suffix_length_le hsuffix (List.suffix_append _ _) ?_
    have hlength := congrArg List.length hpiece
    simp only [List.length_drop, List.length_append] at hlength
    omega
  · -- at the closing braces nothing begins
    obtain ⟨d, rfl⟩ := Nat.exists_eq_add_of_le hk
    rw [← List.drop_drop, List.drop_left] at htext'
    simp only [List.length_append, List.length_cons, List.length_nil] at hlt
    obtain rfl | rfl : d = 0 ∨ d = 1 := by omega
    · simp at htext'
    · simp at htext'

/-- A property access has no other way to match than with the body up to the first closing brace,
and there has to be a dot inside it. -/
private theorem exists_head?_groupings_propertyAccess (h : ExpressionAt source i body)
    (hdot : hasInnerDot body) :
    ∃ groups, (Regex.groupings source propertyAccessParts i).head? = some groups ∧
      groups.flatten = ['{', '{'] ++ body ++ closingBraces := by
  obtain ⟨before, later, rfl, hbefore, hlater⟩ := hasInnerDot_iff.mp hdot
  have hne : Regex.groupings source propertyAccessParts i ≠ [] :=
    List.ne_nil_of_mem (mem_groupings_propertyAccess.mpr ⟨before, later, h, hbefore, hlater, rfl⟩)
  refine ⟨_, List.head?_eq_some_head hne, ?_⟩
  obtain ⟨before', later', hother, -, -, hgroups⟩ :=
    mem_groupings_propertyAccess.mp (List.head_mem hne)
  rw [hgroups, h.unique hother]
  simp

/-- The property accesses are the leftmost matches of their expression. What begins inside another
expression ends with it, so an expression without a dot inside holds no property access. -/
theorem exists_leftmostMatches_propertyAccesses (source : List Char) :
    ∃ found, LeftmostMatches propertyAccessParts source 0 found ∧
      found.map RegexMatch.span = (propertyAccesses source).map Marker.span := by
  have hnone : ∀ i, Regex.groupings source expressionParts i = [] →
      Regex.groupings source propertyAccessParts i = [] := by
    intro i hnone
    refine List.eq_nil_iff_forall_not_mem.mpr fun groups hgroups => ?_
    obtain ⟨before, later, hexpression, -⟩ := mem_groupings_propertyAccess.mp hgroups
    exact groupings_expression_ne_nil hexpression hnone
  have hkept : ∀ m ∈ (expressions source).map Marker.toMatch, hasInnerDot (m.group 1) →
      ∃ groups, (Regex.groupings source propertyAccessParts m.start).head? = some groups ∧
        groups.flatten.length = m.groups.flatten.length := by
    intro _ hmatch hdot
    obtain ⟨m, hm, rfl⟩ := List.mem_map.mp hmatch
    obtain ⟨groups, hgroups, hflatten⟩ :=
      exists_head?_groupings_propertyAccess (expressionAt_of_mem hm) hdot
    refine ⟨groups, hgroups, ?_⟩
    rw [hflatten, Marker.flatten_toMatch, (text_of_mem_expressionMarkers hm).1]
    rfl
  have hleft : ∀ m ∈ (expressions source).map Marker.toMatch, ¬ hasInnerDot (m.group 1) →
      ∀ i, m.start ≤ i → i < m.stop → Regex.groupings source propertyAccessParts i = [] := by
    intro _ hmatch hdot i hle hlt
    obtain ⟨m, hm, rfl⟩ := List.mem_map.mp hmatch
    rw [Marker.stop_toMatch, Marker.stop, (text_of_mem_expressionMarkers hm).1] at hlt
    simp only [List.length_append, List.length_cons, List.length_nil] at hlt
    refine List.eq_nil_iff_forall_not_mem.mpr fun groups hgroups => hdot ?_
    obtain ⟨before, later, hinner, hbefore, hlater, -⟩ := mem_groupings_propertyAccess.mp hgroups
    exact hasInnerDot_of_suffix ((expressionAt_of_mem hm).suffix hinner hle (by omega))
      (hasInnerDot_iff.mpr ⟨before, later, rfl, hbefore, hlater⟩)
  obtain ⟨found, hfound, hspans⟩ :=
    (leftmostMatches_expressions source).exists_stricter hnone hkept hleft
  refine ⟨found, hfound, ?_⟩
  rw [hspans, List.filter_map, List.map_map, propertyAccesses_eq_filter]
  refine List.map_congr_left fun m _ => m.span_toMatch

end ExpressionAt

/-- **Property accesses are the matches of one expression**, span by span and in their order, though
the scan for them never tries a second head before a closing brace; and they are the expressions
whose body has a dot that is neither its first nor its last character. -/
theorem propertyAccesses_matches (source : List Char) :
    (∃ found, LeftmostMatches propertyAccessParts source 0 found ∧
      found.map RegexMatch.span = (propertyAccesses source).map Marker.span) ∧
    propertyAccesses source = (expressions source).filter (fun m => hasInnerDot m.body) ∧
    ∀ body, hasInnerDot body ↔
      ∃ before later, body = before ++ '.' :: later ∧ before ≠ [] ∧ later ≠ [] :=
  ⟨exists_leftmostMatches_propertyAccesses source, propertyAccesses_eq_filter source,
    fun _ => hasInnerDot_iff⟩

/-! ### Raw outputs -/

/-- A raw output as one regular expression. -/
def rawOutputParts : List Regex :=
  [.literal ['{', '{', '{'], .oneOrMore (· != '}'), .literal ['}', '}', '}']]

theorem leftmostMatches_rawOutputs (source : List Char) :
    LeftmostMatches rawOutputParts source 0 ((rawOutputs source).map Marker.toMatch) :=
  MarkerForm.leftmostMatches_markersFrom ⟨.rawOutput, ['}', '}', '}'], true⟩ rfl (by simp)
    source 0 rfl

/-- Where there is a raw output in a stretch there is an expression: its first head stands no
later, and both close at the same brace. -/
private theorem exists_expression_of_rawOutput {stretch : Stretch} {raw : Marker}
    (h : MarkerForm.markerIn? ⟨.rawOutput, ['}', '}', '}'], true⟩ stretch = some raw) :
    ∃ e, MarkerForm.markerIn? ⟨.expression, closingBraces, false⟩ stretch = some e ∧
      e.start ≤ raw.start ∧ e.closeStart = raw.closeStart := by
  have hclose := MarkerForm.closeStart_of_markerIn? h
  obtain ⟨o, hfind, haccepts, rfl⟩ := MarkerForm.markerIn?_eq_some_iff.mp h
  obtain ⟨before, htext, hstart, hsplit⟩ := Pattern.find?_eq_some hfind
  -- two of the three braces are the head of an expression
  have hhead : (Head.expression.pattern.split? (o.matched ++ o.rest)).isSome := by
    obtain ⟨-, hbraces⟩ := (Pattern.split?_literal_eq_some_iff (by decide)).mp hsplit
    have hexpression : Head.expression.pattern.split? (o.matched ++ o.rest) =
        some (['{', '{'], '{' :: o.rest) :=
      (Pattern.split?_literal_eq_some_iff (by decide)).mpr ⟨rfl, hbraces⟩
    rw [hexpression]
    rfl
  obtain ⟨first, hfirst, hle⟩ := Pattern.exists_find?_append hhead stretch.start before
  rw [← List.append_assoc, ← htext] at hfirst
  have hbraces : closingBraces.isPrefixOf ('}' :: stretch.later) := by
    rw [MarkerForm.accepts, Bool.and_eq_true] at haccepts
    have htwo : closingBraces <+: ['}', '}', '}'] := ⟨['}'], rfl⟩
    exact List.isPrefixOf_iff_prefix.mpr (htwo.trans (List.isPrefixOf_iff_prefix.mp haccepts.1))
  have hexpression : MarkerForm.markerIn? ⟨.expression, closingBraces, false⟩ stretch =
      some ⟨first.start, first.matched, first.rest, closingBraces⟩ :=
    MarkerForm.markerIn?_eq_some_iff.mpr
      ⟨first, hfirst, by simpa [MarkerForm.accepts] using hbraces, rfl⟩
  refine ⟨_, hexpression, ?_, (MarkerForm.closeStart_of_markerIn? hexpression).trans hclose.symm⟩
  exact hle.trans (Nat.le_of_eq hstart.symm)

section Partners

variable {α β γ : Type}

/-- Two searches through one list: if what the one finds has a partner that the other finds, then
the partners stand in the same order. -/
private theorem sublistForall₂_filterMap {f : α → Option β} {g : α → Option γ} {R : β → γ → Prop}
    (h : ∀ a b, f a = some b → ∃ c, g a = some c ∧ R b c) (l : List α) :
    List.SublistForall₂ R (l.filterMap f) (l.filterMap g) := by
  induction l with
  | nil => exact .nil
  | cons a l ih =>
    rcases hf : f a with _ | b
    · rw [List.filterMap_cons_none hf]
      rcases hg : g a with _ | c
      · rwa [List.filterMap_cons_none hg]
      · rw [List.filterMap_cons_some hg]
        exact .cons_right ih
    · obtain ⟨c, hg, hR⟩ := h a b hf
      rw [List.filterMap_cons_some hf, List.filterMap_cons_some hg]
      exact .cons hR ih

/-- Partners in the same order, as a map between places. -/
private theorem exists_orderEmbedding {R : β → γ → Prop} {l : List β} {l' : List γ}
    (h : List.SublistForall₂ R l l') :
    ∃ place : Fin l.length ↪o Fin l'.length, ∀ k, R (l.get k) (l'.get (place k)) := by
  obtain ⟨partners, hpartners, hsublist⟩ := List.sublistForall₂_iff.mp h
  obtain ⟨hlength, hR⟩ := List.forall₂_iff_get.mp hpartners
  obtain ⟨place, hplace⟩ := List.sublist_iff_exists_fin_orderEmbedding_get_eq.mp hsublist
  refine ⟨(Fin.castOrderIso hlength).toOrderEmbedding.trans place, fun k => ?_⟩
  have hk := hR k k.isLt (hlength ▸ k.isLt)
  rw [hplace] at hk
  exact hk

end Partners

/-- **Every raw output is counted once among the expressions.** Raw outputs and expressions are the
leftmost matches of a regular expression each. The raw outputs have places among the expressions, in
their order: the expression in the place of a raw output begins no later, and its closing braces
begin at the same offset. So the count of escaped outputs is the number of expressions in no such
place, and the rule reports exactly the templates in which these are fewer than the raw outputs. -/
theorem rawOutputs_embed (source : List Char) (options : Options) :
    LeftmostMatches rawOutputParts source 0 ((rawOutputs source).map Marker.toMatch) ∧
    LeftmostMatches expressionParts source 0 ((expressions source).map Marker.toMatch) ∧
    ∃ place : Fin (rawOutputs source).length ↪o Fin (expressions source).length,
      (∀ k, ((expressions source).get (place k)).start ≤ ((rawOutputs source).get k).start ∧
        ((expressions source).get (place k)).closeStart =
          ((rawOutputs source).get k).closeStart) ∧
      rawCount source ≤ (expressions source).length ∧
      escapedCount source = (Finset.univ.map place.toEmbedding)ᶜ.card ∧
      Rule.excessiveRawOutput.check options source =
        .ok (if (Finset.univ.map place.toEmbedding)ᶜ.card < rawCount source then
          [Catalogue.excessiveRawOutput.worded Catalogue.excessiveRawOutput.message none]
        else []) := by
  have hpartners : List.SublistForall₂
      (fun raw e : Marker => e.start ≤ raw.start ∧ e.closeStart = raw.closeStart)
      (rawOutputs source) (expressions source) := by
    rw [rawOutputs, expressions, MarkerForm.markers_eq_filterMap (by simp),
      MarkerForm.markers_eq_filterMap (by simp [closingBraces])]
    exact sublistForall₂_filterMap (fun stretch raw => exists_expression_of_rawOutput) _
  obtain ⟨place, hplace⟩ := exists_orderEmbedding hpartners
  have hle : rawCount source ≤ (expressions source).length := by
    simpa [rawCount] using Fintype.card_le_of_injective place place.injective
  have hleft : (Finset.univ.map place.toEmbedding)ᶜ.card =
      (expressions source).length - rawCount source := by
    rw [Finset.card_compl, Finset.card_map, Finset.card_univ, Fintype.card_fin, Fintype.card_fin]
    rfl
  have hescaped : escapedCount source = (Finset.univ.map place.toEmbedding)ᶜ.card := by
    rw [escapedCount, hleft]
    omega
  refine ⟨leftmostMatches_rawOutputs source, leftmostMatches_expressions source, place, hplace, hle,
    hescaped, ?_⟩
  have hcheck : Rule.excessiveRawOutput.check options source = _ :=
    Kind.excessiveRawOutput.check_rule options source
  rw [Kind.findings, Spec.when, hescaped] at hcheck
  simpa using hcheck

end Markup

end TemplateLint
