import Mathlib.Data.List.TakeWhile
import TemplateLint.Markup.Marker
import TemplateLint.Proofs.HeadRegex
import TemplateLint.Proofs.PatternSearch

/-!
# The scan for markers finds the leftmost matches

`MarkerForm.parts` is a marker as one regular expression: the head, a body without closing
braces, and the closing text. The scan never goes back to a head that failed and tries no other
head before the same brace. `MarkerForm.leftmostMatches_iff` says that it loses nothing by that: it
finds exactly the leftmost matches of the one expression.

The reason is that heads and bodies hold no closing brace, so a match can close at one place only,
the first closing brace at or after its start. All heads before a brace share that brace.
-/

namespace TemplateLint.Markup

open TemplateLint.Text

/-- The body of a marker. -/
def MarkerForm.bodyRegex (form : MarkerForm) : Regex :=
  if form.nonempty then .oneOrMore (· != '}') else .most (· != '}')

/-- A marker as one regular expression. -/
def MarkerForm.parts (form : MarkerForm) : List Regex :=
  [form.head.regex, form.bodyRegex, .literal form.close]

/-- A marker as a match of its expression. -/
def Marker.toMatch (m : Marker) : RegexMatch :=
  ⟨m.start, [m.head, m.body, m.close]⟩

@[simp] theorem Marker.stop_toMatch (m : Marker) : m.toMatch.stop = m.stop := by
  simp [Marker.toMatch, RegexMatch.stop, Marker.stop, Marker.text]

@[simp] theorem Marker.flatten_toMatch (m : Marker) : m.toMatch.groups.flatten = m.text := by
  simp [Marker.toMatch, Marker.text]

@[simp] theorem Marker.span_toMatch (m : Marker) : m.toMatch.span = m.span := by
  rw [RegexMatch.span, flatten_toMatch]
  rfl

/-! ### Where a marker can close -/

section Closing

variable {source close : List Char}

private theorem isPrefixOf_nil_eq_false (hclose : close.head? = some '}') :
    close.isPrefixOf [] = false := by
  cases close with
  | nil => simp at hclose
  | cons d close => rfl

/-- The body up to the first closing brace and the closing text are the only way to go on behind a
head, if they are one. -/
private theorem MarkerForm.groupings_body (form : MarkerForm) (hclose : form.close.head? = some '}')
    (source : List Char) (i : Nat) :
    Regex.groupings source [form.bodyRegex, .literal form.close] i =
      if form.accepts ((source.drop i).takeWhile (· != '}'))
        ((source.drop i).dropWhile (· != '}')) then
        [[(source.drop i).takeWhile (· != '}'), form.close]]
      else [] := by
  obtain ⟨later, hlater⟩ := List.head?_eq_some_iff.mp hclose
  rw [bodyRegex, accepts, hlater]
  cases form.nonempty with
  | false =>
    rw [if_neg (by decide), groupings_most_literal (p := (· != '}')) rfl]
    simp
  | true =>
    rw [if_pos rfl, groupings_oneOrMore_literal (p := (· != '}')) rfl]
    simp [and_comm]

/-- The only offsets at which a marker can begin and where its head can end, with everything else
settled by the first closing brace. -/
theorem MarkerForm.groupings_parts (form : MarkerForm) (hclose : form.close.head? = some '}')
    (source : List Char) (i : Nat) :
    Regex.groupings source form.parts i =
      (form.head.regex.stops source i).flatMap fun j =>
        if form.accepts ((source.drop j).takeWhile (· != '}'))
          ((source.drop j).dropWhile (· != '}')) then
          [[(source.drop i).take (j - i), (source.drop j).takeWhile (· != '}'), form.close]]
        else [] := by
  rw [parts, Regex.groupings]
  congr 1
  funext j
  rw [form.groupings_body hclose]
  split <;> rfl

end Closing

/-! ### The first closing brace -/

/-- The text from the first closing brace at or after offset `i` on. -/
def fromBrace (source : List Char) (i : Nat) : List Char :=
  (source.drop i).dropWhile (· != '}')

section FirstBrace

variable {source : List Char} {i j k : Nat}

/-- Offsets with no closing brace between them have the same first closing brace. -/
theorem fromBrace_eq_of_spells (h : Spells source (· != '}') i j) :
    fromBrace source i = fromBrace source j := by
  obtain ⟨piece, hpiece, -, hbody⟩ := h
  rw [fromBrace, hpiece, List.dropWhile_append_of_pos hbody, fromBrace]

private theorem fromBrace_eq_nil_of_le (h : fromBrace source i = []) (hik : i ≤ k) :
    fromBrace source k = [] := by
  rw [fromBrace, List.dropWhile_eq_nil_iff] at h ⊢
  intro c hc
  obtain ⟨m, rfl⟩ := Nat.exists_eq_add_of_le hik
  rw [← List.drop_drop] at hc
  exact h c (List.mem_of_mem_drop hc)

/-- The text up to a first closing brace. -/
private theorem exists_spells_of_fromBrace {brace : Char} {later : List Char}
    (h : fromBrace source i = brace :: later) :
    Spells source (· != '}') i (i + ((source.drop i).takeWhile (· != '}')).length) ∧
      source.drop (i + ((source.drop i).takeWhile (· != '}')).length) = '}' :: later := by
  have htext : source.drop i = (source.drop i).takeWhile (· != '}') ++ brace :: later := by
    rw [← h, fromBrace, List.takeWhile_append_dropWhile]
  have hbrace : brace = '}' := by
    have hnot := List.head?_dropWhile_not (· != '}') (source.drop i)
    rw [← fromBrace, h] at hnot
    simpa using hnot
  refine ⟨.of_append htext (List.all_eq_true.mp List.all_takeWhile), ?_⟩
  rw [drop_add_length htext, hbrace]

/-- A head holds no closing brace. -/
theorem Head.spells_of_mem_stops {head : Head} (h : j ∈ head.regex.stops source i) :
    Spells source (· != '}') i j := by
  refine (Regex.spells_of_mem_stops h).mono fun c hc => ?_
  rw [bne_iff_ne]
  rintro rfl
  rw [head.admits_closeBrace] at hc
  exact absurd hc (by decide)

/-- Where the closing text does not stand at the first closing brace no marker begins. -/
private theorem MarkerForm.groupings_eq_nil (form : MarkerForm)
    (hclose : form.close.head? = some '}')
    (h : form.close.isPrefixOf (fromBrace source i) = false) :
    Regex.groupings source form.parts i = [] := by
  rw [form.groupings_parts hclose, List.flatMap_eq_nil_iff]
  intro j hj
  rw [fromBrace_eq_of_spells (Head.spells_of_mem_stops hj), fromBrace] at h
  simp [accepts, h]

/-- A marker that begins before the closing brace at offset `b` closes there, wherever its head
ends. -/
private theorem MarkerForm.of_mem_groupings (form : MarkerForm)
    (hclose : form.close.head? = some '}')
    {b : Nat} {later : List Char} (hspells : Spells source (· != '}') i b)
    (hbrace : source.drop b = '}' :: later) {groups : List (List Char)}
    (h : groups ∈ Regex.groupings source form.parts i) :
    form.close <+: '}' :: later ∧ ∃ head body, groups = [head, body, form.close] ∧
      i + head.length ∈ form.head.regex.stops source i ∧
      source.drop (i + head.length) = body ++ source.drop b ∧
      b = i + head.length + body.length ∧ (form.nonempty → body ≠ []) := by
  rw [form.groupings_parts hclose, List.mem_flatMap] at h
  obtain ⟨j, hj, hgroups⟩ := h
  obtain ⟨head, hhead, rfl, hfree⟩ := Head.spells_of_mem_stops hj
  have hle : i + head.length ≤ b := by
    rcases Nat.lt_or_ge b (i + head.length) with hlt | hge
    · have hbad := (Head.spells_of_mem_stops hj).of_drop_eq_cons hspells.le hlt hbrace
      exact absurd hbad (by decide)
    · exact hge
  obtain ⟨body, hbody, hb, hfree⟩ := hspells.of_le (Nat.le_add_right _ _) hle
  have htake : (source.drop (i + head.length)).takeWhile (· != '}') = body := by
    rw [hbody, hbrace]
    exact takeWhile_append_of_head? hfree rfl
  have hdrop : (source.drop (i + head.length)).dropWhile (· != '}') = '}' :: later := by
    rw [hbody, hbrace]
    exact dropWhile_append_of_head? hfree rfl
  rw [htake, hdrop, Nat.add_sub_cancel_left, hhead, List.take_left] at hgroups
  split at hgroups
  · next haccepts =>
    rw [accepts, Bool.and_eq_true, List.isPrefixOf_iff_prefix] at haccepts
    refine ⟨haccepts.1, head, body, List.mem_singleton.mp hgroups, hj, hbody, hb, fun hasked => ?_⟩
    simpa [hasked] using haccepts.2
  · simp at hgroups

/-- Where its head does not match no marker begins. -/
theorem MarkerForm.groupings_eq_nil_of_split? (form : MarkerForm)
    (hclose : form.close.head? = some '}')
    (h : form.head.pattern.split? (source.drop i) = none) :
    Regex.groupings source form.parts i = [] := by
  have hstops : form.head.regex.stops source i = [] := by
    rw [← List.head?_eq_none_iff, form.head.head?_stops, h, Option.map_none]
  rw [form.groupings_parts hclose, hstops, List.flatMap_nil]

end FirstBrace

/-! ### The scan -/

/-- One step of the scan for markers. -/
theorem MarkerForm.markersFrom_eq (form : MarkerForm) (pos : Nat) (text : List Char) :
    form.markersFrom pos text =
      match form.head.pattern.find? pos text with
      | none => []
      | some o =>
        match o.rest.dropWhile (· != '}') with
        | [] => []
        | brace :: later =>
          if form.accepts (o.rest.takeWhile (· != '}')) (brace :: later) then
            ⟨o.start, o.matched, o.rest.takeWhile (· != '}'), form.close⟩ ::
              form.markersFrom
                (Marker.stop ⟨o.start, o.matched, o.rest.takeWhile (· != '}'), form.close⟩)
                ((brace :: later).drop form.close.length)
          else form.markersFrom (o.stop + (o.rest.takeWhile (· != '}')).length + 1) later := by
  rw [MarkerForm.markersFrom]
  split
  · next h => rw [h]
  · next o h =>
    rw [h]
    dsimp only
    split
    · next hbrace => rw [hbrace]
    · next brace later hbrace => rw [hbrace]

section Scan

variable {form : MarkerForm} {source : List Char} {pos : Nat} {o : Occurrence}

/-- The place where a head that was found ends is the preferred one. -/
theorem stop_eq_head?_stops (h : form.head.pattern.find? pos (source.drop pos) = some o) :
    (form.head.regex.stops source o.start).head? = some o.stop := by
  rw [form.head.head?_stops, (Pattern.split?_of_find? h).1, Option.map_some, Occurrence.stop]

/-- A marker that the scan takes is the preferred match at its place. -/
theorem head?_groupings_of_accepts (hclose : form.close.head? = some '}')
    (h : form.head.pattern.find? pos (source.drop pos) = some o)
    (haccepts : form.accepts (o.rest.takeWhile (· != '}')) (o.rest.dropWhile (· != '}'))) :
    (Regex.groupings source form.parts o.start).head? =
      some [o.matched, o.rest.takeWhile (· != '}'), form.close] := by
  obtain ⟨others, hstops⟩ := List.head?_eq_some_iff.mp (stop_eq_head?_stops h)
  rw [form.groupings_parts hclose, hstops, List.flatMap_cons, Pattern.drop_stop_of_find? h,
    if_pos haccepts, List.singleton_append, List.head?_cons, Pattern.drop_start_of_find? h,
    Occurrence.stop, Nat.add_sub_cancel_left, List.take_left]

/-- Where no closing brace follows the first head no marker begins any more. -/
theorem groupings_eq_nil_of_no_brace (hclose : form.close.head? = some '}')
    (h : form.head.pattern.find? pos (source.drop pos) = some o)
    (hbrace : o.rest.dropWhile (· != '}') = []) {i : Nat} (hi : pos ≤ i) :
    Regex.groupings source form.parts i = [] := by
  have hstop : fromBrace source o.stop = [] := by
    rw [fromBrace, Pattern.drop_stop_of_find? h, hbrace]
  have hstart : fromBrace source o.start = [] := by
    rw [fromBrace_eq_of_spells (Head.spells_of_mem_stops
      (List.mem_of_head? (stop_eq_head?_stops h))), hstop]
  rcases Nat.lt_or_ge i o.start with hlt | hge
  · exact form.groupings_eq_nil_of_split? hclose ((Pattern.split?_of_find? h).2 i hi hlt)
  · refine form.groupings_eq_nil hclose ?_
    rw [fromBrace_eq_nil_of_le hstart hge, isPrefixOf_nil_eq_false hclose]

/-- Where the scan does not take a marker there may still be a match, if a body was asked for: the
head that was found ends at the closing brace, and a head that ends before it leaves a body. -/
theorem exists_shorter_of_not_accepts (hclose : form.close.head? = some '}')
    (h : form.head.pattern.find? pos (source.drop pos) = some o) {brace : Char}
    {later : List Char} (hbrace : o.rest.dropWhile (· != '}') = brace :: later)
    (hnot : ¬ form.accepts (o.rest.takeWhile (· != '}')) (brace :: later)) {i : Nat}
    (hle : o.start ≤ i) (hlt : i < o.stop + (o.rest.takeWhile (· != '}')).length + 1)
    {groups : List (List Char)} (hgroups : groups ∈ Regex.groupings source form.parts i) :
    form.nonempty ∧ o.rest.takeWhile (· != '}') = [] ∧ form.close <+: source.drop o.stop ∧
      ∃ head body, groups = [head, body, form.close] ∧ body ≠ [] ∧
        i + head.length ∈ form.head.regex.stops source i ∧
        source.drop (i + head.length) = body ++ source.drop o.stop ∧
        o.stop = i + head.length + body.length := by
  have hrest := Pattern.drop_stop_of_find? h
  have hhead : o.stop ∈ form.head.regex.stops source o.start :=
    List.mem_of_head? (stop_eq_head?_stops h)
  have hfrom : fromBrace source o.stop = brace :: later := by rw [fromBrace, hrest, hbrace]
  obtain ⟨hbody, hdrop⟩ := exists_spells_of_fromBrace hfrom
  rw [hrest] at hbody hdrop
  -- nothing between the beginning of the head and the brace is a closing brace
  have hspells := ((Head.spells_of_mem_stops hhead).trans hbody).of_le hle (by omega)
  obtain ⟨hcloses, head, body, hgroups, hstop, hsplit, hlength, hne⟩ :=
    form.of_mem_groupings hclose hspells hdrop hgroups
  -- the closing text is there, so a body was asked for and there is none
  obtain ⟨hasked, hempty⟩ : form.nonempty ∧ o.rest.takeWhile (· != '}') = [] := by
    obtain rfl : brace = '}' := by
      have hfirst := List.head?_dropWhile_not (· != '}') o.rest
      simpa [hbrace] using hfirst
    simpa [MarkerForm.accepts, List.isPrefixOf_iff_prefix.mpr hcloses] using hnot
  rw [hempty, List.length_nil, Nat.add_zero] at hdrop hsplit hlength
  exact ⟨hasked, hempty, hdrop ▸ hcloses, head, body, hgroups, hne hasked, hstop, hsplit, hlength⟩

/-- A brace at which the scan does not take a marker closes no marker, if a body is only asked for
behind heads that can end in one place. -/
private theorem groupings_eq_nil_of_not_accepts (hclose : form.close.head? = some '}')
    (hnonempty : form.nonempty → form.head ∈ [Head.expression, .rawOutput, .wholeForm, .loop])
    (h : form.head.pattern.find? pos (source.drop pos) = some o) {brace : Char}
    {later : List Char} (hbrace : o.rest.dropWhile (· != '}') = brace :: later)
    (hnot : ¬ form.accepts (o.rest.takeWhile (· != '}')) (brace :: later)) {i : Nat}
    (hle : o.start ≤ i) (hlt : i < o.stop + (o.rest.takeWhile (· != '}')).length + 1) :
    Regex.groupings source form.parts i = [] := by
  refine List.eq_nil_iff_forall_not_mem.mpr fun groups hgroups => ?_
  obtain ⟨hasked, -, -, head, body, -, hne, hstop, -, hlength⟩ :=
    exists_shorter_of_not_accepts hclose h hbrace hnot hle hlt hgroups
  have hhead : o.stop ∈ form.head.regex.stops source o.start :=
    List.mem_of_head? (stop_eq_head?_stops h)
  have hsame := Head.eq_of_mem_stops (hnonempty hasked) hhead hstop hle (by omega)
  have hpos := List.length_pos_iff.mpr hne
  omega

/-- What the scan finds from an offset on are the leftmost matches from there. -/
theorem MarkerForm.leftmostMatches_markersFrom (form : MarkerForm)
    (hclose : form.close.head? = some '}')
    (hnonempty : form.nonempty → form.head ∈ [Head.expression, .rawOutput, .wholeForm, .loop])
    (source : List Char) (pos : Nat) {text : List Char} (htext : source.drop pos = text) :
    LeftmostMatches form.parts source pos ((form.markersFrom pos text).map Marker.toMatch) := by
  fun_induction MarkerForm.markersFrom form pos text with
  | case1 pos text hfind =>
    subst htext
    refine .nil fun i hi => ?_
    exact form.groupings_eq_nil_of_split? hclose (Pattern.split?_eq_none_of_find? hfind hi)
  | case2 pos text o hfind hbrace =>
    subst htext
    exact .nil fun i hi => groupings_eq_nil_of_no_brace hclose hfind hbrace hi
  | case3 pos text o hfind body brace later hbrace haccepts marker ih =>
    subst htext
    have hbefore := (Pattern.split?_of_find? hfind).2
    have htail : source.drop (o.stop + body.length) = brace :: later := by
      have hrest := Pattern.drop_stop_of_find? hfind
      rw [← List.takeWhile_append_dropWhile (p := (· != '}')) (l := o.rest), hbrace] at hrest
      exact drop_add_length hrest
    have hstop : marker.stop = o.stop + body.length + form.close.length := by
      simp [marker, Marker.stop, Marker.text, Occurrence.stop, Nat.add_assoc]
    have hnext : source.drop marker.stop = (brace :: later).drop form.close.length := by
      rw [hstop, ← List.drop_drop, htail]
    rw [List.map_cons]
    refine .cons (Pattern.le_start hfind) (fun i hi hlt => ?_) ?_ ?_
    · exact form.groupings_eq_nil_of_split? hclose (hbefore i hi hlt)
    · exact head?_groupings_of_accepts hclose hfind (by rw [hbrace]; exact haccepts)
    · rw [Marker.stop_toMatch]
      exact ih hnext
  | case4 pos text o hfind body brace later hbrace haccepts ih =>
    subst htext
    have hrest := Pattern.drop_stop_of_find? hfind
    rw [← List.takeWhile_append_dropWhile (p := (· != '}')) (l := o.rest), hbrace] at hrest
    have hnext : source.drop (o.stop + body.length + 1) = later :=
      drop_succ_of_cons (drop_add_length hrest)
    have hle := Pattern.le_start hfind
    refine (ih hnext).of_skip (by rw [Occurrence.stop]; omega) fun i hi hlt => ?_
    rcases Nat.lt_or_ge i o.start with hbefore | hge
    · exact form.groupings_eq_nil_of_split? hclose ((Pattern.split?_of_find? hfind).2 i hi hbefore)
    · exact groupings_eq_nil_of_not_accepts hclose hnonempty hfind hbrace haccepts hge hlt

/-- **The scan for markers finds exactly the leftmost matches** of the one expression that is made
of the head, a body without closing braces and the closing text, in the order in which they stand,
with the texts that the three parts take. The closing text has to begin with a closing brace. A
body that may not be empty is looked for behind heads that can end in one place only. -/
theorem MarkerForm.leftmostMatches_iff (form : MarkerForm) (hclose : form.close.head? = some '}')
    (hnonempty : form.nonempty → form.head ∈ [Head.expression, .rawOutput, .wholeForm, .loop])
    (source : List Char) (offset : Int) (found : List RegexMatch) :
    LeftmostMatches form.parts source offset.toNat found ↔
      found = (form.markers source offset).map Marker.toMatch :=
  (form.leftmostMatches_markersFrom hclose hnonempty source offset.toNat rfl).iff_eq found

/-- A form without a body is passed over, and so is the brace it shares with an open one. -/
theorem MarkerForm.leftmostMatches_iff_wholeForm :
    LeftmostMatches (MarkerForm.parts ⟨.wholeForm, ['}'], true⟩)
      "\x7b\x7ba_form\x7d\x7b\x7b#b_form c\x7d\x7d".toList (-3 : Int).toNat
      [⟨9, ["\x7b\x7b#b_form".toList, " c".toList, "\x7d".toList]⟩] :=
  (MarkerForm.leftmostMatches_iff ⟨.wholeForm, ['}'], true⟩ rfl (by decide)
    "\x7b\x7ba_form\x7d\x7b\x7b#b_form c\x7d\x7d".toList (-3) _).mpr (by decide +kernel)

end Scan

end TemplateLint.Markup
