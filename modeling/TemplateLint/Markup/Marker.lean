import TemplateLint.Markup.Head

/-!
# Braced markers

A `Marker` is a head, a body without closing braces, and a closing text. A `MarkerForm` says which
markers are looked for, and `MarkerForm.markers` finds them from left to right.

The scan looks for the leftmost head and for the first closing brace after it. If the marker
closes there it is taken, and the scan goes on behind it. If it does not, every other head before
that brace would fail on the same brace, so the scan goes on behind the brace: each character is
passed once, however many heads are left open.
-/

namespace TemplateLint.Markup

open TemplateLint.Text

/-- A marker found in a template. -/
structure Marker where
  /-- Offset of the first character of the head. -/
  start : Nat
  /-- The text of the head. -/
  head : List Char
  /-- The text between head and closing text. -/
  body : List Char
  /-- The closing text. -/
  close : List Char
  deriving DecidableEq

namespace Marker

/-- The marker's source text. -/
def text (m : Marker) : List Char :=
  m.head ++ m.body ++ m.close

/-- Offset just after the marker. -/
def stop (m : Marker) : Nat :=
  m.start + m.text.length

/-- The characters of the marker. -/
def span (m : Marker) : Span :=
  Span.ofLength m.start m.text.length

@[simp] theorem span_start (m : Marker) : m.span.start = m.start := rfl

@[simp] theorem span_stop (m : Marker) : m.span.stop = m.stop := rfl

end Marker

/-- Which markers a scan looks for. -/
structure MarkerForm where
  /-- How they begin. -/
  head : Head
  /-- How they end. -/
  close : List Char
  /-- Whether their body holds at least one character. -/
  nonempty : Bool

namespace MarkerForm

/-- Whether a marker ends at a closing brace: `body` stands between the head and the brace, and
`tail` is the text from the brace on. -/
def accepts (form : MarkerForm) (body tail : List Char) : Bool :=
  form.close.isPrefixOf tail && !(form.nonempty && body.isEmpty)

/-- The markers in `text`, whose first character stands at offset `pos`. -/
def markersFrom (form : MarkerForm) (pos : Nat) (text : List Char) : List Marker :=
  match _h : form.head.pattern.find? pos text with
  | none => []
  | some o =>
    let body := o.rest.takeWhile (· != '}')
    match _hbrace : o.rest.dropWhile (· != '}') with
    | [] => []
    | brace :: later =>
      if form.accepts body (brace :: later) then
        let marker : Marker := ⟨o.start, o.matched, body, form.close⟩
        marker :: form.markersFrom marker.stop ((brace :: later).drop form.close.length)
      else
        form.markersFrom (o.stop + body.length + 1) later
termination_by text.length
decreasing_by
  · have hrest := Pattern.length_rest_lt _h
    have hdrop := (List.dropWhile_suffix (l := o.rest) (· != '}')).length_le
    rw [_hbrace] at hdrop
    simp only [List.length_drop]
    omega
  · have hrest := Pattern.length_rest_lt _h
    have hdrop := (List.dropWhile_suffix (l := o.rest) (· != '}')).length_le
    rw [_hbrace] at hdrop
    simp only [List.length_cons] at hdrop
    omega

/-- No marker stands before the text searched. -/
theorem le_start_of_mem {form : MarkerForm} {pos : Nat} {text : List Char} {m : Marker}
    (h : m ∈ form.markersFrom pos text) : pos ≤ m.start := by
  fun_induction MarkerForm.markersFrom form pos text with
  | case1 => simp at h
  | case2 => simp at h
  | case3 pos text o hfind body brace later hbrace haccepts marker ih =>
    have hstart := Pattern.le_start hfind
    rcases List.mem_cons.mp h with rfl | h
    · exact hstart
    · have hnext : marker.stop ≤ m.start := ih h
      have hmarker : marker.start = o.start := rfl
      unfold Marker.stop at hnext
      omega
  | case4 pos text o hfind body brace later hbrace haccepts ih =>
    have hstart := Pattern.le_start hfind
    have hnext := ih h
    unfold Occurrence.stop at hnext
    omega

/-- The markers of a template from an offset on. An offset before the template stands for its
beginning, and behind its end there are none. -/
def markers (form : MarkerForm) (source : List Char) (offset : Int := 0) : List Marker :=
  form.markersFrom offset.toNat (source.drop offset.toNat)

end MarkerForm

end TemplateLint.Markup
