import TemplateLint.Proofs.MarkerTurns

/-!
# Heads that are cut short

A regular expression that wants a body behind a head does not insist on the longest head. Where
that leaves nothing before the closing brace it goes back to a shorter one, and what the head gives
up becomes the body: in a tag with the name `ab` and nothing else, `a` is the name and `b` the body.
The scan for markers never goes back to a shorter head, so it passes over such a match.

`Head.couldTake` says by the body alone whether a match is of that kind. It concerns the two heads
that can end in several places, opening tags and forms; for the other heads the scan finds every
match (`MarkerForm.leftmostMatches_iff`). `MarkerForm.spans_markers_iff` compares the scan with the
expression:

* They find the same spans exactly if no match of the expression is cut short.
* A match that is cut short is passed over, but the scan goes on right behind the brace and not
  behind the closing text. As long as the closing text holds no opening brace this makes no
  difference, and what the scan finds is what the expression finds less the matches cut short.
-/

namespace TemplateLint.Markup

open TemplateLint.Text

/-- Whether a head that ends before a body could end behind it as well: the body goes on with the
name, and if the name is that of a form it has the ending of one again. -/
def Head.couldTake : Head → List Char → Bool
  | .openTag, body => body.all isWord
  | .form, body => body.all isWord && formEnding.isSuffixOf body
  | _, _ => false

/-! ### Heads of several lengths -/

section Lengths

variable {source : List Char} {i j : Nat}

/-- The longest match of a head is the preferred one, and shorter ones follow in order. -/
private theorem Head.pairwise_stops {head : Head} (hhead : head ∈ [Head.openTag, .form])
    (source : List Char) (i : Nat) : (head.regex.stops source i).Pairwise (· > ·) := by
  simp only [List.mem_cons, List.not_mem_nil, or_false] at hhead
  rcases hhead with rfl | rfl
  · exact pairwise_stops_literal_seq (pairwise_stops_oneOrMore source isWord) _ i
  · refine pairwise_stops_literal_seq (fun k => ?_) _ i
    obtain ⟨name, hname⟩ := exists_stops_skipHash source k (.literal formEnding)
    rw [hname]
    exact pairwise_stops_seq_literal (pairwise_stops_oneOrMore source isWord name) _

private theorem Head.le_of_head?_stops {head : Head} (hhead : head ∈ [Head.openTag, .form])
    (h : (head.regex.stops source i).head? = some j) {k : Nat}
    (hk : k ∈ head.regex.stops source i) : k ≤ j := by
  obtain ⟨shorter, hstops⟩ := List.head?_eq_some_iff.mp h
  have hpairwise := head.pairwise_stops hhead source i
  rw [hstops] at hpairwise hk
  rcases List.mem_cons.mp hk with rfl | hk
  · exact Nat.le_refl _
  · exact Nat.le_of_lt (List.rel_of_pairwise_cons hpairwise hk)

/-- Two endings of form names do not overlap: only the first character of one is an underscore. -/
private theorem add_length_le_of_formEnding {k : Nat} {rest later : List Char}
    (h : source.drop k = formEnding ++ rest) (hlater : source.drop j = formEnding ++ later)
    (hlt : k < j) : k + formEnding.length ≤ j := by
  by_contra hoverlap
  have hform : source.drop (k + 1) = ['f', 'o', 'r', 'm'] ++ rest := drop_succ_of_cons h
  have hfree : Spells source (· != '_') (k + 1) (k + 1 + 4) :=
    .of_append hform (List.all_eq_true.mp rfl)
  have hlength : formEnding.length = 5 := rfl
  have hunderscore := hfree.of_drop_eq_cons (k := j) (by omega) (by omega) hlater
  exact absurd hunderscore (by decide)

/-- The name of a form may also end behind a piece of text that follows it, if that goes on with
the name up to one more ending. -/
private theorem mem_stops_formStem_add {piece rest : List Char}
    (hj : j ∈ (Regex.seq (.oneOrMore isWord) (.literal formEnding)).stops source i)
    (hpiece : source.drop j = piece ++ rest) (hne : piece ≠ []) :
    j + piece.length ∈ (Regex.seq (.oneOrMore isWord) (.literal formEnding)).stops source i ↔
      (∀ c ∈ piece, isWord c) ∧ formEnding <:+ piece := by
  have hpos := List.length_pos_iff.mpr hne
  have hending : ∀ c ∈ formEnding, isWord c := List.all_eq_true.mp rfl
  rw [Regex.stops, List.mem_flatMap] at hj ⊢
  obtain ⟨k, hk, hj⟩ := hj
  obtain ⟨⟨text, htext⟩, rfl⟩ := mem_stops_literal.mp hj
  obtain ⟨hik, hstem⟩ := mem_stops_oneOrMore_iff_spells.mp hk
  have hname := hstem.trans (.of_append htext hending)
  constructor
  · rintro ⟨l, hl, hstop⟩
    obtain ⟨⟨text', htext'⟩, hstop⟩ := mem_stops_literal.mp hstop
    obtain ⟨-, hstem'⟩ := mem_stops_oneOrMore_iff_spells.mp hl
    have hname' := hstem'.trans (.of_append htext' hending)
    rw [← hstop] at hname'
    -- the longer name has an ending of its own, which lies in the piece as a whole
    have hle := add_length_le_of_formEnding htext htext' (by omega)
    refine ⟨(Spells.iff_of_append hpiece).mp (hname'.of_le hname.le (by omega)), ?_⟩
    obtain ⟨between, hbetween, hlength, -⟩ := hstem'.of_le hname.le hle
    rw [htext', ← List.append_assoc] at hbetween
    have hsplit := List.append_inj (hpiece.symm.trans hbetween) (by rw [List.length_append]; omega)
    exact ⟨between, hsplit.1.symm⟩
  · rintro ⟨hword, between, rfl⟩
    rw [List.append_assoc] at hpiece
    obtain ⟨hbetween, -⟩ := List.forall_mem_append.mp hword
    refine ⟨k + formEnding.length + between.length,
      mem_stops_oneOrMore_iff_spells.mpr ⟨by omega, hname.trans (.of_append hpiece hbetween)⟩, ?_⟩
    rw [List.length_append, ← Nat.add_assoc]
    exact mem_stops_literal.mpr ⟨⟨rest, drop_add_length hpiece⟩, rfl⟩

/-- A head that can end at `j` can also end behind the text that follows there exactly if it could
take that text. -/
private theorem Head.mem_stops_add_iff {head : Head} (hhead : head ∈ [Head.openTag, .form])
    {body rest : List Char} (hj : j ∈ head.regex.stops source i)
    (hbody : source.drop j = body ++ rest) (hne : body ≠ []) :
    j + body.length ∈ head.regex.stops source i ↔ head.couldTake body := by
  simp only [List.mem_cons, List.not_mem_nil, or_false] at hhead
  rcases hhead with rfl | rfl
  · obtain ⟨hmark, hname⟩ := mem_stops_seq_literal.mp hj
    rw [Head.regex, mem_stops_seq_literal, and_iff_right hmark,
      mem_stops_oneOrMore_add hname hbody, couldTake, List.all_eq_true]
  · obtain ⟨hmark, hname⟩ := mem_stops_seq_literal.mp hj
    obtain ⟨name, hstops⟩ := exists_stops_skipHash source (i + ['{', '{'].length)
      (.literal formEnding)
    rw [hstops] at hname
    rw [Head.regex, mem_stops_seq_literal, and_iff_right hmark, hstops,
      mem_stops_formStem_add hname hbody hne, couldTake, Bool.and_eq_true, List.all_eq_true,
      List.isSuffixOf_iff_suffix]

end Lengths

namespace MarkerForm

variable {form : MarkerForm} {source : List Char} {pos next : Nat}

/-! ### What a turn does with the matches of the expression -/

/-- Where a turn ends the scan there is no match any more. -/
private theorem groupings_eq_nil_of_turn_ends (hclose : form.close.head? = some '}')
    (h : form.turn source pos = .ends) {i : Nat} (hi : pos ≤ i) :
    Regex.groupings source form.parts i = [] := by
  rcases form.turn_cases source pos with ⟨-, hends⟩ | ⟨o, brace, later, -, -, hturn⟩
  · cases hfind : form.head.pattern.find? pos (source.drop pos) with
    | none =>
      exact form.groupings_eq_nil_of_split? hclose (Pattern.split?_eq_none_of_find? hfind hi)
    | some o => exact groupings_eq_nil_of_no_brace hclose hfind (hends o hfind) hi
  · rw [hturn] at h
    split at h <;> cases h

/-- The head that a search finds is the longest, so it could not take what stands behind it. -/
private theorem not_couldTake_of_find? (hhead : form.head ∈ [Head.openTag, .form]) {o : Occurrence}
    (h : form.head.pattern.find? pos (source.drop pos) = some o) {body rest : List Char}
    (hrest : o.rest = body ++ rest) (hne : body ≠ []) : ¬ form.head.couldTake body := by
  have hlongest := stop_eq_head?_stops h
  have hdrop : source.drop o.stop = body ++ rest := (Pattern.drop_stop_of_find? h).trans hrest
  rw [← Head.mem_stops_add_iff hhead (List.mem_of_head? hlongest) hdrop hne]
  intro hlonger
  have hle := Head.le_of_head?_stops hhead hlongest hlonger
  have hpos := List.length_pos_iff.mpr hne
  omega

/-- A marker that a turn takes is the next match of the expression, and it is not cut short. -/
private theorem first_of_turn_takes (hhead : form.head ∈ [Head.openTag, .form])
    (hclose : form.close.head? = some '}') (hasked : form.nonempty) {m : Marker}
    (h : form.turn source pos = .takes m) :
    (∀ i, pos ≤ i → i < m.start → Regex.groupings source form.parts i = []) ∧
      (Regex.groupings source form.parts m.start).head? = some m.toMatch.groups ∧
      ¬ form.head.couldTake m.body := by
  have hne : m.body ≠ [] := (turn_takes h).2.body_ne_nil hasked
  obtain ⟨o, brace, later, hfind, hbrace, haccepts, rfl⟩ := exists_of_turn_takes h
  refine ⟨fun i hi hlt => ?_, ?_, ?_⟩
  · exact form.groupings_eq_nil_of_split? hclose ((Pattern.split?_of_find? hfind).2 i hi hlt)
  · exact head?_groupings_of_accepts hclose hfind (by rw [hbrace]; exact haccepts)
  · exact not_couldTake_of_find? hhead hfind List.takeWhile_append_dropWhile.symm hne

/-- A match that a turn passes over is cut short, and the scan goes on in its closing text. -/
private theorem cut_of_turn_passes (hhead : form.head ∈ [Head.openTag, .form])
    (hclose : form.close.head? = some '}') (h : form.turn source pos = .passes next)
    {c : RegexMatch} (hle : pos ≤ c.start) (hlt : c.start < next)
    (hc : c.groups ∈ Regex.groupings source form.parts c.start) :
    form.head.couldTake (c.group 1) ∧
      Spells source (fun x => form.close.contains x) next c.stop := by
  obtain ⟨o, brace, later, hfind, hbrace, hnot, rfl⟩ := exists_of_turn_passes h
  have hstart : o.start ≤ c.start := by
    by_contra hbefore
    have hnone := form.groupings_eq_nil_of_split? hclose
      ((Pattern.split?_of_find? hfind).2 c.start hle (by omega))
    simp [hnone] at hc
  obtain ⟨-, hempty, ⟨rest, hrest⟩, head, body, hgroups, hne, hshorter, hbody, hlength⟩ :=
    exists_shorter_of_not_accepts hclose hfind hbrace hnot hstart hlt hc
  have hlongest : o.stop ∈ form.head.regex.stops source o.start :=
    List.mem_of_head? (stop_eq_head?_stops hfind)
  have hsame : c.start = o.start := Nat.le_antisymm
    (Head.start_le_of_named (List.mem_of_mem_dropLast hhead) hlongest hshorter (by omega)) hstart
  constructor
  · -- the longest head is the head of the match together with its body
    rw [RegexMatch.group, hgroups]
    refine (Head.mem_stops_add_iff hhead hshorter hbody hne).mp ?_
    rw [← hlength, hsame]
    exact hlongest
  · have hstop : c.stop = o.stop + form.close.length := by
      simp only [RegexMatch.stop, hgroups, List.flatten_cons, List.flatten_nil, List.append_nil,
        List.length_append]
      omega
    have hpos := List.length_pos_of_mem (List.mem_of_head? hclose)
    have hspells : Spells source (fun x => form.close.contains x) o.stop c.stop :=
      hstop ▸ .of_append hrest.symm (by simp)
    rw [hempty, List.length_nil, Nat.add_zero]
    exact hspells.of_le (Nat.le_succ _) (by omega)

/-! ### The scan and the expression -/

/-- A closing text without opening braces hides no match: every match begins with a brace. -/
private theorem groupings_eq_nil_of_spells (hhead : form.head ∈ [Head.openTag, .form])
    (hclose : form.close.head? = some '}') (hfree : '{' ∉ form.close) {stop i : Nat}
    (hspells : Spells source (fun x => form.close.contains x) next stop) (hle : next ≤ i)
    (hlt : i < stop) : Regex.groupings source form.parts i = [] := by
  rw [form.groupings_parts hclose, List.flatMap_eq_nil_iff]
  intro j hj
  obtain ⟨⟨rest, hrest⟩, -⟩ := Head.spells_of_named (List.mem_of_mem_dropLast hhead) hj
  have hmem := hspells.of_drop_eq_cons hle hlt hrest
  exact absurd (List.contains_iff_mem.mp hmem) hfree

/-- How what a scan finds compares with the matches of the expression. -/
structure Compares (form : MarkerForm) (markers : List Marker) (found : List RegexMatch) :
    Prop where
  /-- The spans are the same exactly if no match is cut short. -/
  spans_eq_iff : markers.map Marker.span = found.map RegexMatch.span ↔
    ∀ c ∈ found, ¬ form.head.couldTake (c.group 1)
  /-- The scan loses the matches that are cut short and no others. -/
  eq_filter : '{' ∉ form.close →
    markers.map Marker.toMatch = found.filter fun c => !form.head.couldTake (c.group 1)

namespace Compares

variable {markers : List Marker} {found : List RegexMatch}

theorem nil (form : MarkerForm) : Compares form [] [] :=
  ⟨by simp, fun _ => rfl⟩

/-- A match that is not cut short is found by both. -/
theorem take (h : Compares form markers found) {m : Marker}
    (hm : ¬ form.head.couldTake m.body) : Compares form (m :: markers) (m.toMatch :: found) := by
  have hgroup : m.toMatch.group 1 = m.body := rfl
  refine ⟨?_, fun hfree => ?_⟩
  · rw [List.map_cons, List.map_cons, Marker.span_toMatch, List.cons.injEq, and_iff_right rfl,
      h.spans_eq_iff, List.forall_mem_cons, hgroup, and_iff_right hm]
  · rw [List.map_cons, h.eq_filter hfree, List.filter_cons_of_pos (by simpa [hgroup] using hm)]

/-- A match that is cut short is found by the expression alone: all that the scan finds comes
behind its beginning. -/
theorem cut {c : RegexMatch} (hc : form.head.couldTake (c.group 1))
    (hbehind : ∀ m ∈ markers, c.start < m.start)
    (h : '{' ∉ form.close → Compares form markers found) : Compares form markers (c :: found) := by
  refine ⟨iff_of_false (fun hspans => ?_) fun huncut => huncut c List.mem_cons_self hc,
    fun hfree => ?_⟩
  · cases markers with
    | nil => simp at hspans
    | cons m markers =>
      rw [List.map_cons, List.map_cons, List.cons.injEq] at hspans
      have hstart : m.start = c.start := congrArg Span.start hspans.1
      have hlt := hbehind m List.mem_cons_self
      omega
  · rw [(h hfree).eq_filter hfree, List.filter_cons_of_neg (by simpa using hc)]

end Compares

private theorem exists_leftmostMatches (form : MarkerForm) (hclose : form.close.head? = some '}')
    (source : List Char) (pos : Nat) : ∃ found, LeftmostMatches form.parts source pos found := by
  refine LeftmostMatches.exists_of_ne_nil (fun i groups hgroups => ?_) pos
  rw [form.groupings_parts hclose, List.mem_flatMap] at hgroups
  obtain ⟨j, -, hgroups⟩ := hgroups
  split at hgroups
  · rw [List.mem_singleton.mp hgroups]
    simp [List.ne_nil_of_mem (List.mem_of_head? hclose)]
  · simp at hgroups

/-- What the scan finds from an offset on compares with the matches from there, turn by turn. -/
private theorem compares_of_leftmostMatches (form : MarkerForm)
    (hhead : form.head ∈ [Head.openTag, .form])
    (hclose : form.close.head? = some '}') (hasked : form.nonempty) (source : List Char)
    (pos : Nat) : ∀ found, LeftmostMatches form.parts source pos found →
      Compares form (form.markers source pos) found := by
  refine markers_induction (motive := fun pos markers => ∀ found,
    LeftmostMatches form.parts source pos found → Compares form markers found)
    (fun pos hturn found hfound => ?_) (fun pos m hturn ih found hfound => ?_)
    (fun pos next hturn ih found hfound => ?_) pos
  · obtain rfl := hfound.unique (.nil fun i hi => groupings_eq_nil_of_turn_ends hclose hturn hi)
    exact .nil form
  · obtain ⟨hbefore, hfirst, huncut⟩ := first_of_turn_takes hhead hclose hasked hturn
    obtain ⟨later, hlater⟩ := form.exists_leftmostMatches hclose source m.stop
    obtain rfl := hfound.unique (.cons (turn_takes hturn).1 hbefore hfirst
      (m.stop_toMatch.symm ▸ hlater))
    exact (ih later hlater).take huncut
  · have hnext := (turn_passes hturn).1
    cases hfound with
    | nil hnone => exact ih [] (.nil fun i hi => hnone i (by omega))
    | @cons _ c later hle hnone hfirst hlater =>
      rcases Nat.lt_or_ge c.start next with hlt | hge
      · obtain ⟨hcut, hspells⟩ :=
          cut_of_turn_passes hhead hclose hturn hle hlt (List.mem_of_head? hfirst)
        refine .cut hcut (fun m hm => ?_) fun hfree => ih later ?_
        · have hbehind : next ≤ m.start := le_start_of_mem hm
          omega
        · exact hlater.of_skip hspells.le fun i hi hlt =>
            groupings_eq_nil_of_spells hhead hclose hfree hspells hi hlt
      · exact ih _ (.cons hge (fun i hi hlt => hnone i (by omega) hlt) hfirst hlater)

/-- **The scan finds the spans that the expression finds exactly if no match is cut short.** For
opening tags and forms with a body that must not be empty, and for every closing text that begins
with a closing brace, let `found` be the leftmost matches of the head, a body of at least one
character and the closing text, as a matcher that goes back to shorter heads finds them. The scan
finds the same spans if and only if the head of none of them could take its body as well. If the
closing text holds no opening brace, the scan finds all other matches, each with the same parts. -/
theorem spans_markers_iff {head : Head} (hhead : head ∈ [Head.openTag, .form])
    {close : List Char} (hclose : close.head? = some '}') (source : List Char) (offset : Int) :
    ∃ found, LeftmostMatches (parts ⟨head, close, true⟩) source offset.toNat found ∧
      ((markers ⟨head, close, true⟩ source offset).map Marker.span = found.map RegexMatch.span ↔
        ∀ c ∈ found, ¬ head.couldTake (c.group 1)) ∧
      ('{' ∉ close → (markers ⟨head, close, true⟩ source offset).map Marker.toMatch =
        found.filter fun c => !head.couldTake (c.group 1)) := by
  obtain ⟨found, hfound⟩ :=
    exists_leftmostMatches ⟨head, close, true⟩ hclose source offset.toNat
  have hcompares := compares_of_leftmostMatches ⟨head, close, true⟩ hhead hclose rfl
    source offset.toNat found hfound
  exact ⟨found, hfound, hcompares.spans_eq_iff, hcompares.eq_filter⟩

/-- Of four tags that close with one brace the scan finds the two that hold more than a name. -/
theorem spans_markers_iff_loopTags :
    Head.openTag ∈ [Head.openTag, .form] ∧ ['}'].head? = some '}' ∧ '{' ∉ ['}'] ∧
      ∃ found, LeftmostMatches (parts ⟨.openTag, ['}'], true⟩)
        "\x7b\x7b#for\x7d\x7d\x7b\x7b#for a\x7d\x7d\x7b\x7b#form\x7d\x7d\x7b\x7b#for b\x7d".toList
        (0 : Int).toNat found ∧
      [⟨8, ["\x7b\x7b#for".toList, " a".toList, ['}']]⟩,
        ⟨27, ["\x7b\x7b#for".toList, " b".toList, ['}']]⟩] =
        found.filter fun c => !Head.openTag.couldTake (c.group 1) := by
  obtain ⟨found, hfound, -, hfilter⟩ := spans_markers_iff
    (by decide : Head.openTag ∈ [Head.openTag, .form]) (by rfl : ['}'].head? = some '}')
    "\x7b\x7b#for\x7d\x7d\x7b\x7b#for a\x7d\x7d\x7b\x7b#form\x7d\x7d\x7b\x7b#for b\x7d".toList 0
  refine ⟨by decide, rfl, by decide, found, hfound, ?_⟩
  rw [← hfilter (by decide)]
  decide +kernel

/-- A match that is the whole text is the only one. -/
private theorem leftmostMatches_whole {groups : List (List Char)}
    (hclose : form.close.head? = some '}')
    (hfirst : (Regex.groupings source form.parts 0).head? = some groups)
    (hwhole : groups.flatten.length = source.length) :
    LeftmostMatches form.parts source 0 [⟨0, groups⟩] := by
  refine .cons (Nat.zero_le _) (fun i _ hlt => absurd hlt (Nat.not_lt_zero i)) hfirst
    (.nil fun i hi => form.groupings_eq_nil_of_split? hclose ?_)
  rw [RegexMatch.stop, hwhole] at hi
  rw [List.drop_eq_nil_of_le (by omega), Pattern.split?_nil]

/-- A tag with nothing but a name of two letters, and a form whose name has its ending twice, are
matches of the expression, but the scan does not find them. -/
theorem spans_markers_bareName :
    (LeftmostMatches (parts ⟨.openTag, closingBraces, true⟩) "\x7b\x7b#ab\x7d\x7d".toList 0
        [⟨0, ["\x7b\x7b#a".toList, "b".toList, closingBraces]⟩] ∧
      markers ⟨.openTag, closingBraces, true⟩ "\x7b\x7b#ab\x7d\x7d".toList = []) ∧
    (LeftmostMatches (parts ⟨.form, closingBraces, true⟩) "\x7b\x7ba_form_form\x7d\x7d".toList 0
        [⟨0, ["\x7b\x7ba_form".toList, "_form".toList, closingBraces]⟩] ∧
      markers ⟨.form, closingBraces, true⟩ "\x7b\x7ba_form_form\x7d\x7d".toList = []) := by
  refine ⟨⟨leftmostMatches_whole rfl ?_ ?_, ?_⟩, leftmostMatches_whole rfl ?_ ?_, ?_⟩ <;>
    decide +kernel

end MarkerForm

end TemplateLint.Markup
