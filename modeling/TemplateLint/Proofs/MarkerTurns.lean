import TemplateLint.Proofs.ExpressionPlaces

/-!
# The scan for markers, turn by turn

A scan has a cursor, an offset of the template. In one turn it takes a marker and goes on where that
ends, or it passes a closing brace and goes on behind it, or it ends. `MarkerForm.turn` is such a
turn, and `MarkerForm.scanIn` the scan with a bound on the number of its turns.

With an empty closing text a marker ends before the brace that was found, so it is not the brace
that brings the scan forward, but the head: a marker is never empty. Hence every turn moves the
cursor forward and none moves it behind the end of the template, whatever the closing text is
(`turn_takes`, `turn_passes`). This is the one measure by which everything about whole scans is
shown (`markers_induction`): a scan ends after at most one turn for each character it has before it
and one more, and it can be taken up again at the end of each of its markers.
`MarkerForm.markers_inOrder` puts this together.
-/

namespace TemplateLint.Markup

open TemplateLint.Text

/-- What a turn of a scan comes to. -/
inductive Turn where
  /-- No head is left, or no closing brace behind it. -/
  | ends
  | takes (m : Marker)
  /-- The scan goes on at an offset. -/
  | passes (next : Nat)

namespace MarkerForm

/-- One turn of the scan of a template with the cursor at `pos`. -/
def turn (form : MarkerForm) (source : List Char) (pos : Nat) : Turn :=
  match form.head.pattern.find? pos (source.drop pos) with
  | none => .ends
  | some o =>
    match o.rest.dropWhile (· != '}') with
    | [] => .ends
    | brace :: later =>
      let body := o.rest.takeWhile (· != '}')
      if form.accepts body (brace :: later) then .takes ⟨o.start, o.matched, body, form.close⟩
      else .passes (o.stop + body.length + 1)

/-- The scan from an offset on, if it ends within the given number of turns. -/
def scanIn (form : MarkerForm) (source : List Char) : Nat → Nat → Option (List Marker)
  | 0, _ => none
  | turns + 1, pos =>
    match form.turn source pos with
    | .ends => some []
    | .takes m => (form.scanIn source turns m.stop).map (m :: ·)
    | .passes next => form.scanIn source turns next

/-- A marker of a form stands in a template. -/
structure Marks (form : MarkerForm) (source : List Char) (m : Marker) : Prop where
  start_lt_stop : m.start < m.stop
  stop_le_length : m.stop ≤ source.length
  /-- The text of the marker's span is its head, its body and the closing text. -/
  slice_eq : m.span.slice source = m.head ++ m.body ++ form.close
  /-- The head is what the form's regular expression matches at the beginning of the marker. -/
  head_stop : (form.head.regex.stops source m.start).head? = some (m.start + m.head.length)
  body_free : '}' ∉ m.body
  body_ne_nil : form.nonempty → m.body ≠ []

variable {form : MarkerForm} {source : List Char} {pos next : Nat} {m : Marker}

/-! ### One turn -/

section Found

variable {o : Occurrence} {brace : Char} {later : List Char}

/-- What stands at the first closing brace behind a head that was found. -/
private theorem drop_brace_of_find? (hfind : form.head.pattern.find? pos (source.drop pos) = some o)
    (hbrace : o.rest.dropWhile (· != '}') = brace :: later) :
    source.drop (o.stop + (o.rest.takeWhile (· != '}')).length) = brace :: later := by
  have hrest := Pattern.drop_stop_of_find? hfind
  rw [← List.takeWhile_append_dropWhile (p := (· != '}')) (l := o.rest), hbrace] at hrest
  exact drop_add_length hrest

/-- Where a marker that closes at the first closing brace ends. -/
private theorem stop_found (o : Occurrence) (body close : List Char) :
    Marker.stop ⟨o.start, o.matched, body, close⟩ = o.stop + body.length + close.length := by
  simp [Marker.stop, Marker.text, Occurrence.stop, Nat.add_assoc]

/-- A head, a body and the closing text behind it are a marker. -/
private theorem marks_of_accepts (hfind : form.head.pattern.find? pos (source.drop pos) = some o)
    (hbrace : o.rest.dropWhile (· != '}') = brace :: later)
    (haccepts : form.accepts (o.rest.takeWhile (· != '}')) (brace :: later)) :
    form.Marks source ⟨o.start, o.matched, o.rest.takeWhile (· != '}'), form.close⟩ := by
  set m : Marker := ⟨o.start, o.matched, o.rest.takeWhile (· != '}'), form.close⟩ with hm
  have hhead : o.matched ≠ [] := form.head.pattern.ne_nil (Pattern.split?_of_find? hfind).1
  have hne : m.text ≠ [] := by simp [hm, Marker.text, hhead]
  rw [accepts, Bool.and_eq_true, List.isPrefixOf_iff_prefix] at haccepts
  obtain ⟨⟨tail, htail⟩, hnonempty⟩ := haccepts
  have hdrop : source.drop m.start = m.text ++ tail := by
    rw [hm, Pattern.drop_start_of_find? hfind, Marker.text, List.append_assoc, List.append_assoc,
      htail, ← hbrace, List.takeWhile_append_dropWhile]
  have hstands : StandsAt source m.start m.text := .of_drop hdrop
  refine ⟨?_, hstands.stop_le hne, hstands.slice_ofLength, stop_eq_head?_stops hfind, ?_, ?_⟩
  · have hpos := List.length_pos_iff.mpr hne
    rw [Marker.stop]
    omega
  · intro hmem
    simpa using List.all_eq_true.mp List.all_takeWhile _ hmem
  · intro hasked hbody
    rw [hasked, show o.rest.takeWhile (· != '}') = [] from hbody] at hnonempty
    cases hnonempty

end Found

/-- What a turn does: it ends the scan, for want of a head or of a closing brace, or it finds a head
and the first closing brace behind it and takes a marker or not. -/
theorem turn_cases (form : MarkerForm) (source : List Char) (pos : Nat) :
    (form.turn source pos = .ends ∧
      ∀ o, form.head.pattern.find? pos (source.drop pos) = some o →
        o.rest.dropWhile (· != '}') = []) ∨
      ∃ o brace later, form.head.pattern.find? pos (source.drop pos) = some o ∧
        o.rest.dropWhile (· != '}') = brace :: later ∧
        form.turn source pos =
          if form.accepts (o.rest.takeWhile (· != '}')) (brace :: later) then
            .takes ⟨o.start, o.matched, o.rest.takeWhile (· != '}'), form.close⟩
          else .passes (o.stop + (o.rest.takeWhile (· != '}')).length + 1) := by
  rw [turn]
  split
  · next hfind => exact .inl ⟨rfl, by simp [hfind]⟩
  · next o hfind =>
    split
    · next hbrace =>
      refine .inl ⟨rfl, fun other hother => ?_⟩
      rw [hfind, Option.some.injEq] at hother
      rw [← hother, hbrace]
    · next brace later hbrace => exact .inr ⟨o, brace, later, hfind, hbrace, rfl⟩

/-- What was found when a turn takes a marker. -/
theorem exists_of_turn_takes (h : form.turn source pos = .takes m) :
    ∃ o brace later, form.head.pattern.find? pos (source.drop pos) = some o ∧
      o.rest.dropWhile (· != '}') = brace :: later ∧
      form.accepts (o.rest.takeWhile (· != '}')) (brace :: later) ∧
      m = ⟨o.start, o.matched, o.rest.takeWhile (· != '}'), form.close⟩ := by
  rcases form.turn_cases source pos with ⟨hends, -⟩ | ⟨o, brace, later, hfind, hbrace, hturn⟩
  · rw [hends] at h
    cases h
  · rw [hturn] at h
    split at h
    · next haccepts =>
      cases h
      exact ⟨o, brace, later, hfind, hbrace, haccepts, rfl⟩
    · cases h

/-- What was found when a turn passes a closing brace. -/
theorem exists_of_turn_passes (h : form.turn source pos = .passes next) :
    ∃ o brace later, form.head.pattern.find? pos (source.drop pos) = some o ∧
      o.rest.dropWhile (· != '}') = brace :: later ∧
      ¬ form.accepts (o.rest.takeWhile (· != '}')) (brace :: later) ∧
      next = o.stop + (o.rest.takeWhile (· != '}')).length + 1 := by
  rcases form.turn_cases source pos with ⟨hends, -⟩ | ⟨o, brace, later, hfind, hbrace, hturn⟩
  · rw [hends] at h
    cases h
  · rw [hturn] at h
    split at h
    · cases h
    · next hnot =>
      cases h
      exact ⟨o, brace, later, hfind, hbrace, hnot, rfl⟩

/-- A turn that takes a marker takes one that stands at or behind the cursor. -/
theorem turn_takes (h : form.turn source pos = .takes m) :
    pos ≤ m.start ∧ form.Marks source m := by
  obtain ⟨o, brace, later, hfind, hbrace, haccepts, rfl⟩ := exists_of_turn_takes h
  exact ⟨Pattern.le_start hfind, marks_of_accepts hfind hbrace haccepts⟩

/-- A turn that passes a closing brace moves the cursor forward, but not out of the template. -/
theorem turn_passes (h : form.turn source pos = .passes next) :
    pos < next ∧ next ≤ source.length := by
  obtain ⟨o, brace, later, hfind, hbrace, -, rfl⟩ := exists_of_turn_passes h
  have hlength := congrArg List.length (drop_brace_of_find? hfind hbrace)
  rw [List.length_drop, List.length_cons] at hlength
  have hstart := Pattern.le_start hfind
  rw [Occurrence.stop] at hlength ⊢
  omega

/-- A scan is a turn and the scan from where the cursor is then. -/
theorem markers_eq_turn (form : MarkerForm) (source : List Char) (pos : Nat) :
    form.markers source pos =
      match form.turn source pos with
      | .ends => []
      | .takes m => m :: form.markers source m.stop
      | .passes next => form.markers source next := by
  simp only [markers, Int.toNat_natCast]
  rw [markersFrom_eq, turn]
  cases hfind : form.head.pattern.find? pos (source.drop pos) with
  | none => rfl
  | some o =>
    dsimp only
    cases hbrace : o.rest.dropWhile (· != '}') with
    | nil => rfl
    | cons brace later =>
      have hdrop := drop_brace_of_find? hfind hbrace
      dsimp only
      split
      · rw [← hdrop, List.drop_drop, ← stop_found]
      · rw [← drop_succ_of_cons hdrop]

/-! ### Whole scans -/

/-- Induction along a scan, by its turns. -/
theorem markers_induction {motive : Nat → List Marker → Prop}
    (ends : ∀ pos, form.turn source pos = .ends → motive pos [])
    (takes : ∀ pos m, form.turn source pos = .takes m →
      motive m.stop (form.markers source m.stop) → motive pos (m :: form.markers source m.stop))
    (passes : ∀ pos next, form.turn source pos = .passes next →
      motive next (form.markers source next) → motive pos (form.markers source next))
    (pos : Nat) : motive pos (form.markers source pos) := by
  induction hleft : source.length - pos using Nat.strongRecOn generalizing pos with
  | ind left ih =>
    rw [markers_eq_turn]
    cases hturn : form.turn source pos with
    | ends => exact ends pos hturn
    | takes m =>
      obtain ⟨hstart, hm⟩ := turn_takes hturn
      have hlt := hm.start_lt_stop
      have hle := hm.stop_le_length
      exact takes pos m hturn (ih _ (by omega) m.stop rfl)
    | passes next =>
      obtain ⟨hlt, hle⟩ := turn_passes hturn
      exact passes pos next hturn (ih _ (by omega) next rfl)

/-- A scan needs at most one turn for each character before it, and one to end. -/
private theorem scanIn_eq_some {turns : Nat} (h : source.length - pos < turns) :
    form.scanIn source turns pos = some (form.markers source pos) := by
  induction turns generalizing pos with
  | zero => omega
  | succ turns ih =>
    rw [scanIn, markers_eq_turn]
    cases hturn : form.turn source pos with
    | ends => rfl
    | takes m =>
      obtain ⟨hstart, hm⟩ := turn_takes hturn
      have hlt := hm.start_lt_stop
      have hle := hm.stop_le_length
      simp only
      rw [ih (by omega), Option.map_some]
    | passes next =>
      obtain ⟨hlt, hle⟩ := turn_passes hturn
      exact ih (by omega)

private theorem marks_of_mem (pos : Nat) : ∀ m ∈ form.markers source pos, form.Marks source m := by
  refine markers_induction (motive := fun _ found => ∀ m ∈ found, form.Marks source m)
    (fun pos _ => by simp) (fun pos m hturn ih => ?_) (fun pos next _ ih => ih) pos
  rw [List.forall_mem_cons]
  exact ⟨(turn_takes hturn).2, ih⟩

/-- A scan can be taken up at the end of each of its markers. -/
private theorem markers_stop (pos : Nat) : ∀ before m after,
    form.markers source pos = before ++ m :: after → form.markers source m.stop = after := by
  refine markers_induction (motive := fun _ found => ∀ before m after,
    found = before ++ m :: after → form.markers source m.stop = after)
    (fun pos _ => by simp) (fun pos first hturn ih before m after h => ?_)
    (fun pos next _ ih => ih) pos
  cases before with
  | nil =>
    rw [List.nil_append, List.cons.injEq] at h
    rw [← h.1, h.2]
  | cons other before =>
    rw [List.cons_append, List.cons.injEq] at h
    exact ih before m after h.2

/-- **A scan finds its markers in order and ends, whatever the closing text is.** It needs at most
one turn for each character from its first cursor on and one more. The markers begin at or behind
the offset at which the scan began, or the beginning of the template, and each ends before the next
one begins. Each is a nonempty piece of the template: what the head matches there, a body without
closing braces, which is not empty if that was asked for, and the closing text. Taken up again at
the end of one of its markers, the scan finds those that come after it. -/
theorem markers_inOrder (form : MarkerForm) (source : List Char) (offset : Int) :
    form.scanIn source (source.length - offset.toNat + 1) offset.toNat =
      some (form.markers source offset) ∧
    (∀ m, (form.markers source offset).head? = some m → max offset 0 ≤ m.start) ∧
    (form.markers source offset).Pairwise (fun m next => m.stop ≤ next.start) ∧
    (∀ m ∈ form.markers source offset, form.Marks source m) ∧
    ∀ before m after, form.markers source offset = before ++ m :: after →
      form.markers source m.stop = after := by
  have hcursor : form.markers source offset = form.markers source offset.toNat := by
    simp only [markers, Int.toNat_natCast]
  refine ⟨?_, fun m hm => ?_, form.pairwise_markersFrom _ _, ?_, ?_⟩
  · rw [hcursor]
    exact scanIn_eq_some (Nat.lt_succ_self _)
  · have hle := le_start_of_mem (List.mem_of_head? hm)
    omega
  · rw [hcursor]
    exact marks_of_mem _
  · rw [hcursor]
    exact markers_stop _

end MarkerForm

end TemplateLint.Markup
