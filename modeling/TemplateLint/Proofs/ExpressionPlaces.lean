import TemplateLint.Proofs.ExpressionScans

/-!
# Where expressions stand

The scan for expressions carries an offset from one expression to the next, so what it takes at
one place might depend on everything before it. It does not: `mem_expressions_iff` says by the text
around a place whether there is an expression. Two braces, a body and two closing braces have to
stand there, and no two braces may begin earlier in the same stretch, which is the text behind the
last closing brace (`stretchStart`).

`emptyExpression_check_places` is the case of blank bodies: it lists the findings of the rule by
their places alone.
-/

namespace TemplateLint

open TemplateLint.Markup TemplateLint.Text

namespace Text.Span

/-- The text from a span on is what it covers and what follows. -/
private theorem drop_start_eq (span : Span) (text : List Char) :
    text.drop span.start = span.slice text ++ text.drop span.stop := by
  have hstop : span.stop = span.start + (span.stop - span.start) := by
    have := span.ordered
    omega
  rw [slice, hstop, ← List.drop_drop, Nat.add_sub_cancel_left, List.take_append_drop]

/-- A span inside a text is as long as what it covers. -/
private theorem ofLength_length_slice {span : Span} {text : List Char}
    (h : span.stop ≤ text.length) :
    ofLength span.start (span.slice text).length = span := by
  obtain ⟨start, stop, hle⟩ := span
  simp only at h
  simp only [ofLength, slice, List.length_take, List.length_drop, mk.injEq, true_and]
  omega

end Text.Span

namespace Markup

/-! ### The stretch of an offset -/

/-- The offset just behind the last closing brace before `offset`, and zero if there is none. -/
def stretchStart (source : List Char) : Nat → Nat
  | 0 => 0
  | offset + 1 => if source[offset]? = some '}' then offset + 1 else stretchStart source offset

section StretchStart

variable {source : List Char} {i : Nat}

private theorem stretchStart_succ_of_brace {later : List Char} (h : source.drop i = '}' :: later) :
    stretchStart source (i + 1) = i + 1 := by
  have hbrace : source[i]? = some '}' := by rw [← List.head?_drop, h, List.head?_cons]
  rw [stretchStart, if_pos hbrace]

/-- Text without a closing brace belongs to the stretch before it. -/
private theorem stretchStart_add_length {piece rest : List Char} (hpiece : '}' ∉ piece)
    (h : source.drop i = piece ++ rest) :
    stretchStart source (i + piece.length) = stretchStart source i := by
  induction piece generalizing i with
  | nil => rfl
  | cons c piece ih =>
    rw [List.mem_cons, not_or] at hpiece
    have hhere : source[i]? = some c := by rw [← List.head?_drop, h]; rfl
    have hnot : ¬ source[i]? = some '}' := by
      rw [hhere, Option.some.injEq]
      exact Ne.symm hpiece.1
    have hstep : stretchStart source (i + 1) = stretchStart source i := by
      rw [stretchStart, if_neg hnot]
    rw [List.length_cons, Nat.add_comm piece.length, ← Nat.add_assoc,
      ih hpiece.2 (drop_succ_of_cons h), hstep]

/-- A stretch begins behind a closing brace or with the template. -/
private theorem stretchStart_start_of_mem {pos : Nat} {text : List Char} {stretch : Stretch}
    (htext : source.drop pos = text) (hpos : stretchStart source pos = pos)
    (h : stretch ∈ stretchesFrom pos text) :
    stretchStart source stretch.start = stretch.start := by
  fun_induction stretchesFrom pos text with
  | case1 => simp at h
  | case2 pos text brace later hbrace ih =>
    obtain ⟨hsplit, -⟩ := append_of_dropWhile_eq_cons hbrace
    rcases List.mem_cons.mp h with rfl | h
    · exact hpos
    · have hdrop := drop_add_length (htext.trans hsplit)
      exact ih (drop_succ_of_cons hdrop) (stretchStart_succ_of_brace hdrop) h

variable {stretch : Stretch}

/-- From any offset of a stretch one gets back to where the stretch begins. -/
private theorem stretchStart_of_mem (h : stretch ∈ stretches source) {front tail : List Char}
    (htext : stretch.text = front ++ tail) :
    stretchStart source (stretch.start + front.length) = stretch.start := by
  obtain ⟨hdrop, hstretch⟩ := drop_of_mem_stretchesFrom List.drop_zero h
  have hfront : '}' ∉ front := fun hbrace => hstretch (htext ▸ List.mem_append_left _ hbrace)
  rw [htext, List.append_assoc] at hdrop
  rw [stretchStart_add_length hfront hdrop]
  exact stretchStart_start_of_mem List.drop_zero rfl h

end StretchStart

/-! ### Places of expressions -/

/-- No two opening braces begin before the offset in its stretch. -/
def OpensStretch (source : List Char) (offset : Nat) : Prop :=
  ∀ i, stretchStart source offset ≤ i → i < offset → ¬ StandsAt source i ['{', '{']

section Places

variable {source : List Char} {stretch : Stretch} {o : Occurrence}

/-- The first head in a stretch opens it. -/
private theorem opensStretch_of_find? (hmem : stretch ∈ stretches source)
    (hfind : Head.expression.pattern.find? stretch.start stretch.text = some o) :
    OpensStretch source o.start := by
  obtain ⟨hdrop, hstretch⟩ := drop_of_mem_stretchesFrom List.drop_zero hmem
  obtain ⟨before, htext, hstart, -⟩ := Pattern.find?_eq_some hfind
  rw [List.append_assoc] at htext
  intro i hle hlt hstands
  rw [hstart, stretchStart_of_mem hmem htext] at hle
  -- a search through the whole template finds the same head and passes the offset
  have hsearch := Pattern.find?_append_brace Head.expression.stopsAtBrace stretch.start hstretch
    stretch.later
  rw [← hdrop, hfind, Option.map_some, Option.some_or] at hsearch
  have hnone := (Pattern.split?_of_find? hsearch).2 i hle hlt
  obtain ⟨rest, hrest⟩ := hstands
  have hsome : Head.expression.pattern.split? (source.drop i) = some (['{', '{'], rest) :=
    (Pattern.split?_literal_eq_some_iff (by decide)).mpr ⟨rfl, hrest.symm⟩
  rw [hnone] at hsome
  cases hsome

/-- Two braces that open a stretch are the first head in it. -/
private theorem find?_of_opensStretch {body front : List Char} (hmem : stretch ∈ stretches source)
    (htext : stretch.text = front ++ (['{', '{'] ++ body))
    (hopens : OpensStretch source (stretch.start + front.length)) :
    Head.expression.pattern.find? stretch.start stretch.text =
      some ⟨stretch.start + front.length, ['{', '{'], body⟩ := by
  have hsplit : Head.expression.pattern.split? (['{', '{'] ++ body) = some (['{', '{'], body) :=
    (Pattern.split?_literal_eq_some_iff (by decide)).mpr ⟨rfl, rfl⟩
  obtain ⟨o, hfind, hle⟩ :=
    Pattern.exists_find?_append (by rw [hsplit]; rfl) stretch.start front
  rw [← htext] at hfind
  obtain ⟨before, hbefore, hstart, hhead⟩ := Pattern.find?_eq_some hfind
  have hmatched : o.matched = ['{', '{'] :=
    ((Pattern.split?_literal_eq_some_iff (by decide)).mp hhead).1
  rw [hmatched, List.append_assoc] at hbefore
  -- the head that was found stands in the template, so it cannot begin earlier
  have hstands : StandsAt source o.start ['{', '{'] := by
    have hdrop := (drop_of_mem_stretchesFrom List.drop_zero hmem).1
    rw [hbefore, List.append_assoc, List.append_assoc] at hdrop
    rw [hstart]
    exact .of_drop (drop_add_length hdrop)
  have hnot : ¬ o.start < stretch.start + front.length := by
    intro hlt
    refine hopens o.start ?_ hlt hstands
    rw [stretchStart_of_mem hmem htext]
    exact Pattern.le_start hfind
  have hlength : before.length = front.length := by omega
  obtain ⟨-, htail⟩ := List.append_inj (hbefore.symm.trans htext) hlength
  obtain ⟨start, matched, rest⟩ := o
  simp only at hmatched hstart htail
  rw [hfind, hmatched, hstart, hlength, List.append_cancel_left htail]

/-- What has the form of an expression is, up to its closing braces, the end of a stretch. -/
private theorem ExpressionAt.exists_stretch {body : List Char} {start : Nat}
    (h : ExpressionAt source start body) :
    ∃ stretch ∈ stretches source, closingBraces <+: '}' :: stretch.later ∧
      ∃ front, stretch.text = front ++ (['{', '{'] ++ body) ∧
        start = stretch.start + front.length := by
  obtain ⟨hbody, rest, hdrop⟩ := h
  have hpiece : '}' ∉ ['{', '{'] ++ body := by simpa using hbody
  have hsource : source = source.take start ++ ((['{', '{'] ++ body) ++ '}' :: '}' :: rest) := by
    rw [List.append_assoc, ← hdrop, List.take_append_drop]
  obtain ⟨stretch, hmem, hlater, front, hfront⟩ := exists_mem_stretchesFrom hpiece 0 hsource
  refine ⟨stretch, hmem, ⟨rest, by rw [hlater]; rfl⟩, front, hfront.symm, ?_⟩
  -- the same text follows both offsets, so they are the same
  have hend := (drop_of_mem_stretchesFrom List.drop_zero hmem).1
  rw [← hfront, hlater, List.append_assoc] at hend
  have hlength := congrArg List.length (drop_add_length hend)
  have hlength' := congrArg List.length hdrop
  simp only [List.length_drop, List.length_append, List.length_cons] at hlength hlength'
  omega

/-- **Where there is an expression is decided in its stretch**: there is one exactly where its text
stands and no two braces begin before it in the stretch. -/
theorem mem_expressions_iff {m : Marker} :
    m ∈ expressions source ↔ m.head = ['{', '{'] ∧ m.close = closingBraces ∧
      ExpressionAt source m.start m.body ∧ OpensStretch source m.start := by
  have hscan : expressions source =
      (stretches source).filterMap (MarkerForm.markerIn? ⟨.expression, closingBraces, false⟩) :=
    MarkerForm.markers_eq_filterMap (by simp [closingBraces]) source
  constructor
  · intro h
    have hat := expressionAt_of_mem h
    rw [hscan] at h
    obtain ⟨stretch, hmem, hmarker⟩ := List.mem_filterMap.mp h
    obtain ⟨o, hfind, -, rfl⟩ := MarkerForm.markerIn?_eq_some_iff.mp hmarker
    obtain ⟨-, -, -, hsplit⟩ := Pattern.find?_eq_some hfind
    exact ⟨((Pattern.split?_literal_eq_some_iff (by decide)).mp hsplit).1, rfl, hat,
      opensStretch_of_find? hmem hfind⟩
  · obtain ⟨start, head, body, close⟩ := m
    rintro ⟨rfl, rfl, hat, hopens⟩
    obtain ⟨stretch, hmem, hclose, front, htext, rfl⟩ := hat.exists_stretch
    have haccepts : MarkerForm.accepts ⟨.expression, closingBraces, false⟩ body
        ('}' :: stretch.later) := by
      simpa [MarkerForm.accepts] using hclose
    rw [hscan]
    exact List.mem_filterMap.mpr ⟨stretch, hmem, MarkerForm.markerIn?_eq_some_iff.mpr
      ⟨_, find?_of_opensStretch hmem htext hopens, haccepts, rfl⟩⟩

/-- Markers follow one another: each ends before the next one begins. -/
theorem MarkerForm.pairwise_markersFrom (form : MarkerForm) (pos : Nat) (text : List Char) :
    (form.markersFrom pos text).Pairwise fun m next => m.stop ≤ next.start := by
  fun_induction MarkerForm.markersFrom form pos text with
  | case1 => exact .nil
  | case2 => exact .nil
  | case3 pos text o hfind body brace later hbrace haccepts marker ih =>
    exact .cons (fun next hnext => MarkerForm.le_start_of_mem hnext) ih
  | case4 pos text o hfind body brace later hbrace haccepts ih => exact ih

end Places

/-! ### Blank expressions -/

/-- A span of a template is that of a blank expression. -/
structure BlankExpressionAt (source : List Char) (span : Span) : Prop where
  stop_le : span.stop ≤ source.length
  /-- Nothing but blanks stands between two braces and two closing braces. -/
  slice_eq : ∃ blanks, span.slice source = ['{', '{'] ++ blanks ++ ['}', '}'] ∧
    ∀ c ∈ blanks, isBlank c
  opens : OpensStretch source span.start

@[simp] theorem isBlank_closeBrace : isBlank '}' = false := by decide

theorem mem_blankExpressions_iff {source : List Char} {span : Span} :
    span ∈ (blankExpressions source).map Marker.span ↔ BlankExpressionAt source span := by
  rw [List.mem_map]
  constructor
  · rintro ⟨m, hm, rfl⟩
    obtain ⟨hm, hblank⟩ := List.mem_filter.mp hm
    obtain ⟨htext, -⟩ := text_of_mem_expressionMarkers hm
    have hstands := MarkerForm.standsAt_of_mem hm
    refine ⟨hstands.stop_le (by simp [htext]), ⟨m.body, ?_, ?_⟩, ?_⟩
    · rw [← htext]
      exact hstands.slice_ofLength
    · exact trim_eq_nil_iff.mp (List.isEmpty_iff.mp hblank)
    · exact (mem_expressions_iff.mp hm).2.2.2
  · rintro ⟨hstop, ⟨blanks, hslice, hblank⟩, hopens⟩
    have hdrop := Span.drop_start_eq span source
    rw [hslice] at hdrop
    have hbody : '}' ∉ blanks := fun hmem => by simpa using hblank _ hmem
    refine ⟨⟨span.start, ['{', '{'], blanks, closingBraces⟩, List.mem_filter.mpr ⟨?_, ?_⟩, ?_⟩
    · exact mem_expressions_iff.mpr
        ⟨rfl, rfl, ⟨hbody, source.drop span.stop, by simpa using hdrop⟩, hopens⟩
    · exact List.isEmpty_iff.mpr (trim_eq_nil_iff.mpr hblank)
    · rw [Marker.span, Marker.text, closingBraces, ← hslice]
      exact Span.ofLength_length_slice hstop

end Markup

/-- **Blank expressions are found where they stand.** The rule reports, from left to right and once
each, the spans in which only blanks stand between two braces and two closing braces and before
which no two braces begin behind the last closing brace. -/
theorem emptyExpression_check_places (options : Options) (source : List Char) :
    ∃ spans : List Span,
      Rule.emptyExpression.check options source =
        .ok (spans.map fun span =>
          Catalogue.emptyExpression.worded Catalogue.emptyExpression.message (some span)) ∧
      spans.Pairwise (· < ·) ∧
      ∀ span, span ∈ spans ↔ BlankExpressionAt source span := by
  refine ⟨(blankExpressions source).map Marker.span, ?_, ?_, fun span => mem_blankExpressions_iff⟩
  · rw [List.map_map]
    exact Kind.emptyExpression.check_rule options source
  · have horder : (blankExpressions source).Pairwise fun m next => m.stop ≤ next.start :=
      (MarkerForm.pairwise_markersFrom _ _ _).filter _
    refine List.pairwise_map.mpr (horder.imp_of_mem fun {m next} hm _ hle => .inl ?_)
    obtain ⟨htext, -⟩ := text_of_mem_expressionMarkers (List.mem_of_mem_filter hm)
    have hlt : m.start < m.stop := by simp [Marker.stop, htext]
    exact Nat.lt_of_lt_of_le hlt hle

end TemplateLint
