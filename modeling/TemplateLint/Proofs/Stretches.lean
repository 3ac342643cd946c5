import TemplateLint.Proofs.MarkerScan

/-!
# The stretches between closing braces

A template falls into stretches: each begins behind a closing brace, or where the template begins,
and runs up to the next closing brace. A marker ends at the first closing brace behind its head, so
it lies in one stretch, and what stands in the other stretches has no influence on it. That is
`MarkerForm.markers_eq_filterMap`: if the closing text is made of closing braces, the scan finds in
each stretch the marker that begins with the first head there, or none. Two such scans go on at
different offsets behind what they find, but they can be compared stretch by stretch.

The reason is that heads hold no closing brace and never look beyond one (`Head.stopsAtBrace`).
-/

namespace TemplateLint.Markup

open TemplateLint.Text

/-! ### Heads do not look beyond a closing brace -/

/-- What a recogniser finds before a closing brace is not changed by the brace or by what follows
it. -/
def StopsAtBrace (inner : List Char → Option (List Char × List Char)) : Prop :=
  ∀ piece later : List Char, '}' ∉ piece →
    inner (piece ++ '}' :: later) = (inner piece).map fun cut => (cut.1, cut.2 ++ '}' :: later)

private theorem after?_append_brace {mark : List Char} (hmark : '}' ∉ mark)
    (piece later : List Char) :
    after? mark (piece ++ '}' :: later) = (after? mark piece).map (· ++ '}' :: later) := by
  ext rest
  rw [after?_eq_some_iff, Option.map_eq_some_iff, List.append_eq_append_iff]
  simp only [after?_eq_some_iff]
  constructor
  · rintro (⟨tail, rfl, htail⟩ | ⟨tail, rfl, rfl⟩)
    · -- the mark would have to reach the brace
      rcases tail with _ | ⟨c, tail⟩
      · exact ⟨[], by simp, htail⟩
      · obtain ⟨rfl, -⟩ := List.cons.inj htail
        simp at hmark
    · exact ⟨tail, rfl, rfl⟩
  · rintro ⟨tail, rfl, rfl⟩
    exact .inr ⟨tail, rfl, rfl⟩

section Runs

variable {p : Char → Bool} {d : Char}

/-- A run of characters ends at the latest where a character of another kind stands. -/
private theorem takeWhile_append_cons_of_neg (hd : p d = false) (piece later : List Char) :
    (piece ++ d :: later).takeWhile p = piece.takeWhile p := by
  induction piece with
  | nil => exact List.takeWhile_cons_of_neg (by simp [hd])
  | cons c piece ih => rw [List.cons_append, List.takeWhile_cons, List.takeWhile_cons, ih]

private theorem dropWhile_append_cons_of_neg (hd : p d = false) (piece later : List Char) :
    (piece ++ d :: later).dropWhile p = piece.dropWhile p ++ d :: later := by
  induction piece with
  | nil => exact List.dropWhile_cons_of_neg (by simp [hd])
  | cons c piece ih =>
    rw [List.cons_append, List.dropWhile_cons, List.dropWhile_cons, ih]
    split <;> rfl

end Runs

private theorem stopsAtBrace_splitName? : StopsAtBrace splitName? := by
  intro piece later _
  rw [splitName?, splitName?, takeWhile_append_cons_of_neg isWord_closeBrace,
    dropWhile_append_cons_of_neg isWord_closeBrace]
  rcases piece.takeWhile isWord with _ | ⟨c, name⟩ <;> rfl

private theorem stopsAtBrace_splitFormStem? : StopsAtBrace splitFormStem? := by
  intro piece later _
  rw [splitFormStem?, splitFormStem?, takeWhile_append_cons_of_neg isWord_closeBrace,
    dropWhile_append_cons_of_neg isWord_closeBrace]
  rcases piece.takeWhile isWord with _ | ⟨c, name⟩
  · rfl
  · simp [Function.comp_def]

private theorem stopsAtBrace_splitFormName? : StopsAtBrace splitFormName? := by
  intro piece later hpiece
  rw [splitFormName?, splitFormName?, stopsAtBrace_splitName? piece later hpiece]
  rcases splitName? piece with _ | ⟨name, rest⟩
  · rfl
  · by_cases hform : isFormName name <;> simp [Option.filter, hform]

private theorem stopsAtBrace_wordEnd? : StopsAtBrace wordEnd? := by
  intro piece later _
  rcases piece with _ | ⟨c, piece⟩
  · rfl
  · by_cases hc : isWord c <;> simp [wordEnd?, hc]

theorem StopsAtBrace.skipHash {inner : List Char → Option (List Char × List Char)}
    (h : StopsAtBrace inner) : StopsAtBrace (skipHash inner) := by
  intro piece later hpiece
  rcases piece with _ | ⟨c, piece⟩
  · exact h [] later hpiece
  · by_cases hc : c = '#'
    · subst hc
      have htail : '}' ∉ piece := fun hmem => hpiece (List.mem_cons_of_mem _ hmem)
      rw [List.cons_append, Markup.skipHash, Markup.skipHash, h piece later htail, Option.map_map,
        Option.map_map]
      rfl
    · have hskip : ∀ tail, Markup.skipHash inner (c :: tail) = inner (c :: tail) := by
        intro tail
        rw [Markup.skipHash]
        rintro _ heq
        exact hc (List.cons.inj heq).1
      rw [List.cons_append, hskip, hskip]
      exact h (c :: piece) later hpiece

theorem StopsAtBrace.literal {mark : List Char} (hmark : mark ≠ []) (hbrace : '}' ∉ mark) :
    StopsAtBrace (Pattern.literal mark hmark).split? := by
  intro piece later _
  simp only [Pattern.literal, after?_append_brace hbrace, Option.map_map]
  rfl

theorem StopsAtBrace.marked {mark : List Char} {inner : List Char → Option (List Char × List Char)}
    (h : StopsAtBrace inner)
    (hinner : ∀ {text piece rest}, inner text = some (piece, rest) → text = piece ++ rest)
    (hmark : mark ≠ []) (hbrace : '}' ∉ mark) :
    StopsAtBrace (Pattern.marked mark inner hinner hmark).split? := by
  intro piece later hpiece
  simp only [Pattern.marked, after?_append_brace hbrace]
  rcases hafter : after? mark piece with _ | tail
  · rfl
  · have htail : '}' ∉ tail := by
      intro hmem
      rw [after?_eq_some_iff.mp hafter] at hpiece
      exact hpiece (List.mem_append_right _ hmem)
    have hnext := h tail later htail
    rcases hcut : inner tail with _ | cut <;> simp [hnext, hcut]

/-- **No head looks beyond a closing brace.** -/
theorem Head.stopsAtBrace (head : Head) : StopsAtBrace head.pattern.split? := by
  cases head with
  | openTag => exact stopsAtBrace_splitName?.marked append_of_splitName? (by decide) (by decide)
  | expression => exact .literal (by decide) (by decide)
  | rawOutput => exact .literal (by decide) (by decide)
  | form =>
    exact stopsAtBrace_splitFormStem?.skipHash.marked (append_of_skipHash append_of_splitFormStem?)
      (by decide) (by decide)
  | wholeForm =>
    exact stopsAtBrace_splitFormName?.skipHash.marked (append_of_skipHash append_of_splitFormName?)
      (by decide) (by decide)
  | loop => exact stopsAtBrace_wordEnd?.marked append_of_wordEnd? (by decide) (by decide)

/-- A search looks through the text before a closing brace and then behind the brace. -/
theorem Pattern.find?_append_brace {pattern : Pattern} (h : StopsAtBrace pattern.split?)
    (pos : Nat) {piece : List Char} (hpiece : '}' ∉ piece) (later : List Char) :
    pattern.find? pos (piece ++ '}' :: later) =
      ((pattern.find? pos piece).map fun o => ⟨o.start, o.matched, o.rest ++ '}' :: later⟩).or
        (pattern.find? (pos + piece.length + 1) later) := by
  induction piece generalizing pos with
  | nil =>
    have hnone := h [] later hpiece
    rw [split?_nil, Option.map_none, List.nil_append] at hnone
    have hstep : pattern.find? pos ('}' :: later) = pattern.find? (pos + 1) later := by
      rw [find?, hnone]
    exact hstep
  | cons c piece ih =>
    have htail : '}' ∉ piece := fun hmem => hpiece (List.mem_cons_of_mem _ hmem)
    have hhere := h (c :: piece) later hpiece
    rw [List.cons_append] at hhere ⊢
    rw [find?, find?, hhere]
    rcases pattern.split? (c :: piece) with _ | cut
    · simp only [Option.map_none, ih (pos + 1) htail, List.length_cons]
      congr 2
      omega
    · rfl

/-! ### Stretches -/

/-- A stretch of text up to a closing brace. -/
structure Stretch where
  /-- Offset of its first character, or of the brace if there is none. -/
  start : Nat
  /-- The text up to the brace. -/
  text : List Char
  /-- The text behind the brace. -/
  later : List Char

/-- Offset of the closing brace. -/
def Stretch.brace (stretch : Stretch) : Nat :=
  stretch.start + stretch.text.length

/-- The stretches of `text`, whose first character stands at offset `pos`. What follows the last
closing brace is none of them. -/
def stretchesFrom (pos : Nat) (text : List Char) : List Stretch :=
  match _h : text.dropWhile (· != '}') with
  | [] => []
  | _ :: later =>
    ⟨pos, text.takeWhile (· != '}'), later⟩ ::
      stretchesFrom (pos + (text.takeWhile (· != '}')).length + 1) later
termination_by text.length
decreasing_by
  have hdrop := (List.dropWhile_suffix (l := text) (· != '}')).length_le
  rw [_h, List.length_cons] at hdrop
  omega

/-- The stretches of a template. -/
def stretches (source : List Char) : List Stretch :=
  stretchesFrom 0 source

/-- Offset of the closing text of a marker. -/
def Marker.closeStart (m : Marker) : Nat :=
  m.start + m.head.length + m.body.length

/-- The marker in a stretch: it begins with the first head there. -/
def MarkerForm.markerIn? (form : MarkerForm) (stretch : Stretch) : Option Marker :=
  (form.head.pattern.find? stretch.start stretch.text).bind fun o =>
    if form.accepts o.rest ('}' :: stretch.later) then
      some ⟨o.start, o.matched, o.rest, form.close⟩
    else none

theorem MarkerForm.markerIn?_eq_some_iff {form : MarkerForm} {stretch : Stretch} {m : Marker} :
    form.markerIn? stretch = some m ↔
      ∃ o, form.head.pattern.find? stretch.start stretch.text = some o ∧
        form.accepts o.rest ('}' :: stretch.later) ∧
        m = ⟨o.start, o.matched, o.rest, form.close⟩ := by
  rw [markerIn?, Option.bind_eq_some_iff]
  refine exists_congr fun o => and_congr_right fun _ => ?_
  split
  · next haccepts => simp [haccepts, eq_comm]
  · next haccepts => simp [haccepts]

/-- A marker closes at the brace of its stretch. -/
theorem MarkerForm.closeStart_of_markerIn? {form : MarkerForm} {stretch : Stretch} {m : Marker}
    (h : form.markerIn? stretch = some m) : m.closeStart = stretch.brace := by
  obtain ⟨o, hfind, -, rfl⟩ := markerIn?_eq_some_iff.mp h
  obtain ⟨before, htext, hstart, -⟩ := Pattern.find?_eq_some hfind
  simp only [Marker.closeStart, Stretch.brace, hstart, htext, List.length_append]
  omega

theorem forall_bne_closeBrace_iff {piece : List Char} :
    (∀ c ∈ piece, (c != '}') = true) ↔ '}' ∉ piece := by
  constructor
  · intro h hmem
    simpa using h _ hmem
  · intro h c hc
    rw [bne_iff_ne]
    rintro rfl
    exact h hc

/-- The text of a first stretch, its brace and what follows. -/
theorem append_of_dropWhile_eq_cons {text later : List Char} {brace : Char}
    (h : text.dropWhile (· != '}') = brace :: later) :
    text = text.takeWhile (· != '}') ++ '}' :: later ∧ '}' ∉ text.takeWhile (· != '}') := by
  have hbrace : brace = '}' := by
    have hnot := List.head?_dropWhile_not (· != '}') text
    rw [h] at hnot
    simpa using hnot
  subst hbrace
  refine ⟨?_, forall_bne_closeBrace_iff.mp (List.all_eq_true.mp List.all_takeWhile)⟩
  rw [← h, List.takeWhile_append_dropWhile]

/-- A text has one first closing brace. -/
theorem append_brace_inj {piece piece' later later' : List Char} (hpiece : '}' ∉ piece)
    (hpiece' : '}' ∉ piece') (h : piece ++ '}' :: later = piece' ++ '}' :: later') :
    piece = piece' ∧ later = later' := by
  rcases List.append_eq_append_iff.mp h with ⟨tail, rfl, htail⟩ | ⟨tail, rfl, htail⟩
  · rcases tail with _ | ⟨c, tail⟩
    · exact ⟨by simp, (List.cons.inj htail).2⟩
    · obtain ⟨rfl, -⟩ := List.cons.inj htail
      simp at hpiece'
  · rcases tail with _ | ⟨c, tail⟩
    · exact ⟨by simp, (List.cons.inj htail).2.symm⟩
    · obtain ⟨rfl, -⟩ := List.cons.inj htail
      simp at hpiece

/-- A stretch holds no closing brace and ends at one. -/
theorem drop_of_mem_stretchesFrom {source text : List Char} {pos : Nat} {stretch : Stretch}
    (htext : source.drop pos = text) (h : stretch ∈ stretchesFrom pos text) :
    source.drop stretch.start = stretch.text ++ '}' :: stretch.later ∧ '}' ∉ stretch.text := by
  fun_induction stretchesFrom pos text with
  | case1 => simp at h
  | case2 pos text brace later hbrace ih =>
    obtain ⟨hsplit, hpiece⟩ := append_of_dropWhile_eq_cons hbrace
    have hfirst : source.drop pos = text.takeWhile (· != '}') ++ '}' :: later :=
      htext.trans hsplit
    rcases List.mem_cons.mp h with rfl | h
    · exact ⟨hfirst, hpiece⟩
    · exact ih (drop_succ_of_cons (drop_add_length hfirst)) h

/-- What stands before a closing brace without another one between them is the end of a stretch. -/
theorem exists_mem_stretchesFrom {piece later : List Char} (hpiece : '}' ∉ piece) (pos : Nat)
    {text front : List Char} (htext : text = front ++ (piece ++ '}' :: later)) :
    ∃ stretch ∈ stretchesFrom pos text, stretch.later = later ∧ piece <:+ stretch.text := by
  fun_induction stretchesFrom pos text generalizing front with
  | case1 pos text hnone =>
    rw [List.dropWhile_eq_nil_iff, forall_bne_closeBrace_iff, htext] at hnone
    simp at hnone
  | case2 pos text brace rest hbrace ih =>
    obtain ⟨hsplit, hstretch⟩ := append_of_dropWhile_eq_cons hbrace
    rw [hsplit] at htext
    -- either the piece lies in the first stretch or that stretch ends before it
    rcases List.append_eq_append_iff.mp htext with ⟨tail, -, htail⟩ | ⟨tail, hfirst, htail⟩
    · rcases tail with _ | ⟨c, tail⟩
      · rw [List.nil_append] at htail
        obtain ⟨rfl, rfl⟩ := append_brace_inj List.not_mem_nil hpiece htail
        exact ⟨_, List.mem_cons_self, rfl, List.nil_suffix⟩
      · obtain ⟨rfl, hrest⟩ := List.cons.inj htail
        obtain ⟨stretch, hmem, hend⟩ := ih hrest
        exact ⟨stretch, List.mem_cons_of_mem _ hmem, hend⟩
    · have htail' : '}' ∉ tail := fun hmem => hstretch (hfirst ▸ List.mem_append_right _ hmem)
      obtain ⟨rfl, rfl⟩ := append_brace_inj hpiece htail' htail
      exact ⟨_, List.mem_cons_self, rfl, front, hfirst.symm⟩

/-! ### The scan, stretch by stretch -/

section Stretches

variable {form : MarkerForm} {pos : Nat} {text : List Char}

/-- The scan depends on the text only through the first head. -/
private theorem MarkerForm.markersFrom_congr {pos' : Nat} {text' : List Char}
    (h : form.head.pattern.find? pos text = form.head.pattern.find? pos' text') :
    form.markersFrom pos text = form.markersFrom pos' text' := by
  rw [markersFrom_eq, markersFrom_eq form pos', h]

/-- Closing braces are passed over. -/
private theorem MarkerForm.markersFrom_closeBraces (form : MarkerForm) (pos : Nat)
    {braces : List Char} (hbraces : ∀ c ∈ braces, c = '}') (later : List Char) :
    form.markersFrom pos (braces ++ later) =
      form.markersFrom (pos + braces.length) later := by
  induction braces generalizing pos with
  | nil => rfl
  | cons c braces ih =>
    obtain ⟨rfl, htail⟩ := List.forall_mem_cons.mp hbraces
    have hbrace := Pattern.find?_append_brace form.head.stopsAtBrace pos List.not_mem_nil
      (braces ++ later)
    have hstep : form.markersFrom pos ('}' :: (braces ++ later)) =
        form.markersFrom (pos + 1) (braces ++ later) := markersFrom_congr hbrace
    rw [List.cons_append, hstep, ih (pos + 1) htail, List.length_cons]
    congr 1
    omega

/-- Text without a closing brace holds no marker. -/
private theorem MarkerForm.markersFrom_eq_nil (h : '}' ∉ text) :
    form.markersFrom pos text = [] := by
  rw [markersFrom_eq]
  split
  · rfl
  · next o hfind =>
    obtain ⟨before, htext, -, -⟩ := Pattern.find?_eq_some hfind
    have hnone : o.rest.dropWhile (· != '}') = [] := by
      rw [List.dropWhile_eq_nil_iff, forall_bne_closeBrace_iff]
      exact fun hmem => h (htext ▸ List.mem_append_right _ hmem)
    rw [hnone]

/-- One stretch after the other: the scan finds the marker of the first stretch, if it has one, and
goes on behind its brace. -/
private theorem MarkerForm.markersFrom_append_brace (hclose : ∀ c ∈ form.close, c = '}') (pos : Nat)
    {piece : List Char} (hpiece : '}' ∉ piece) (later : List Char) :
    form.markersFrom pos (piece ++ '}' :: later) =
      (form.markerIn? ⟨pos, piece, later⟩).toList ++
        form.markersFrom (pos + piece.length + 1) later := by
  have hsearch := Pattern.find?_append_brace form.head.stopsAtBrace pos hpiece later
  rcases hfind : form.head.pattern.find? pos piece with _ | o
  · rw [hfind, Option.map_none, Option.none_or] at hsearch
    rw [markersFrom_congr hsearch, markerIn?, hfind]
    rfl
  · rw [hfind, Option.map_some, Option.some_or] at hsearch
    obtain ⟨before, htext, hstart, -⟩ := Pattern.find?_eq_some hfind
    have hrest : ∀ c ∈ o.rest, (c != '}') = true :=
      forall_bne_closeBrace_iff.mpr fun hmem => hpiece (htext ▸ List.mem_append_right _ hmem)
    have hhead : ('}' :: later).head?.any (· != '}') = false := rfl
    have hbrace : o.stop + o.rest.length = pos + piece.length := by
      rw [Occurrence.stop, hstart, htext, List.length_append, List.length_append]
      omega
    rw [markersFrom_eq, hsearch]
    simp only [takeWhile_append_of_head? hrest hhead, dropWhile_append_of_head? hrest hhead,
      markerIn?, hfind, Option.bind_some, Occurrence.stop]
    rw [Occurrence.stop] at hbrace
    by_cases haccepts : form.accepts o.rest ('}' :: later)
    · -- behind the marker there are at most more braces of the closing text to pass over
      obtain ⟨tail, htail⟩ : form.close <+: '}' :: later := by
        rw [accepts, Bool.and_eq_true] at haccepts
        exact List.isPrefixOf_iff_prefix.mp haccepts.1
      have hstop : Marker.stop ⟨o.start, o.matched, o.rest, form.close⟩ =
          pos + piece.length + form.close.length := by
        simp only [Marker.stop, Marker.text, List.length_append]
        omega
      have hnext := calc
        form.markersFrom (pos + piece.length + form.close.length) tail
          = form.markersFrom (pos + piece.length) (form.close ++ tail) :=
            (form.markersFrom_closeBraces _ hclose tail).symm
        _ = form.markersFrom (pos + piece.length) (['}'] ++ later) := by rw [htail]; rfl
        _ = form.markersFrom (pos + piece.length + 1) later :=
            form.markersFrom_closeBraces _ (by simp) later
      rw [if_pos haccepts, if_pos haccepts, hstop, ← htail, List.drop_left, hnext]
      rfl
    · rw [if_neg haccepts, if_neg haccepts, hbrace]
      rfl

/-- **A scan treats every stretch on its own**: it finds the markers of the stretches, in their
order. -/
theorem MarkerForm.markers_eq_filterMap (hclose : ∀ c ∈ form.close, c = '}')
    (source : List Char) : form.markers source = (stretches source).filterMap form.markerIn? := by
  have hscan : ∀ pos text,
      form.markersFrom pos text = (stretchesFrom pos text).filterMap form.markerIn? := by
    intro pos text
    fun_induction stretchesFrom pos text with
    | case1 pos text hnone =>
      rw [List.dropWhile_eq_nil_iff, forall_bne_closeBrace_iff] at hnone
      exact markersFrom_eq_nil hnone
    | case2 pos text brace later hbrace ih =>
      obtain ⟨htext, hpiece⟩ := append_of_dropWhile_eq_cons hbrace
      have hstep := markersFrom_append_brace hclose pos hpiece later
      rw [← htext] at hstep
      rw [hstep, ih, List.filterMap_cons]
      rcases form.markerIn? ⟨pos, text.takeWhile (· != '}'), later⟩ with _ | m <;> rfl
  exact hscan 0 source

end Stretches

end TemplateLint.Markup
