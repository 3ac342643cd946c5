import TemplateLint.Proofs.Reports
import TemplateLint.Proofs.Validity

/-!
# Where findings stand

A finding that has a place points at the piece of the template it is about, and its message names
that piece. `Kind.Names` says for each code what piece that is, and `validate_names` that every
finding of every run points at such a piece, or has no place because its code has none.

The places come from five scans that count offsets each in their own way. For every scan there is
one lemma that says what it finds and that it stands where the scan says: `StandsAt` is a piece of
text at an offset of the template, without any scan.
-/

namespace TemplateLint

open TemplateLint.Markup TemplateLint.Text

namespace Text

/-! ### Pieces of a text -/

/-- A piece of text stands in the source at an offset. -/
def StandsAt (source : List Char) (start : Nat) (piece : List Char) : Prop :=
  piece <+: source.drop start

namespace StandsAt

variable {source piece : List Char} {start : Nat} {span : Span}

theorem of_append (before piece later : List Char) :
    StandsAt (before ++ (piece ++ later)) before.length piece := by
  rw [StandsAt, List.drop_left]
  exact List.prefix_append piece later

theorem of_drop {rest : List Char} (h : source.drop start = piece ++ rest) :
    StandsAt source start piece :=
  ⟨rest, h.symm⟩

theorem stop_le (h : StandsAt source start piece) (hne : piece ≠ []) :
    start + piece.length ≤ source.length := by
  have hlength := h.length_le
  have hpos := List.length_pos_iff.mpr hne
  rw [List.length_drop] at hlength
  omega

/-- A span that begins where a piece stands begins with that piece, if it is long enough. -/
private theorem prefix_slice (h : StandsAt source span.start piece)
    (hstop : span.start + piece.length ≤ span.stop) : piece <+: span.slice source := by
  rw [Span.slice, List.prefix_take_iff]
  exact ⟨h, by omega⟩

/-- A span that ends where a piece ends, and does not begin inside it, ends with that piece. -/
private theorem suffix_slice (h : StandsAt source start piece) (hstart : span.start ≤ start)
    (hstop : span.stop = start + piece.length) : piece <:+ span.slice source := by
  obtain ⟨k, rfl⟩ := Nat.exists_eq_add_of_le hstart
  have hlength : span.stop - span.start - k = piece.length := by omega
  have hpiece : (span.slice source).drop k = piece := by
    rw [Span.slice, List.drop_take, List.drop_drop, hlength]
    exact (List.prefix_iff_eq_take.mp h).symm
  rw [← hpiece]
  exact List.drop_suffix k _

theorem slice_ofLength (h : StandsAt source start piece) :
    (Span.ofLength start piece.length).slice source = piece := by
  have hbegins : piece <+: (Span.ofLength start piece.length).slice source :=
    prefix_slice h (Nat.le_refl _)
  refine (hbegins.eq_of_length_le ?_).symm
  rw [Span.slice, List.length_take]
  exact (Nat.min_le_left _ _).trans (by simp [Span.ofLength])

end StandsAt

end Text

namespace Markup

/-! ### Markers -/

/-- What a marker that was found is made of: a head that the form asks for, a body without closing
braces, and the closing text of the form. -/
private theorem MarkerForm.of_mem_markersFrom {form : MarkerForm} {pos : Nat} {text : List Char}
    {m : Marker} (h : m ∈ form.markersFrom pos text) :
    (∃ rest, form.head.pattern.split? (m.head ++ rest) = some (m.head, rest)) ∧
      '}' ∉ m.body ∧ m.close = form.close := by
  fun_induction MarkerForm.markersFrom form pos text with
  | case1 => simp at h
  | case2 => simp at h
  | case3 pos text o hfind body brace later hbrace haccepts marker ih =>
    rcases List.mem_cons.mp h with rfl | h
    · obtain ⟨_, -, -, hsplit⟩ := Pattern.find?_eq_some hfind
      refine ⟨⟨o.rest, hsplit⟩, fun hmem => ?_, rfl⟩
      have hbody := List.all_eq_true.mp List.all_takeWhile _ hmem
      simp at hbody
    · exact ih h
  | case4 pos text o hfind body brace later hbrace haccepts ih => exact ih h

theorem MarkerForm.standsAt_of_mem {form : MarkerForm} {source : List Char} {m : Marker}
    (h : m ∈ form.markers source) : StandsAt source m.start m.text := by
  obtain ⟨before, later, hsource, hstart⟩ := exists_append_of_mem h
  rw [Int.toNat_zero, List.drop_zero] at hsource
  rw [Int.toNat_zero, Nat.zero_add] at hstart
  rw [hsource, hstart]
  exact .of_append before m.text later

/-- What an expression is. -/
theorem text_of_mem_expressionMarkers {nonempty : Bool} {source : List Char} {m : Marker}
    (h : m ∈ MarkerForm.markers ⟨.expression, closingBraces, nonempty⟩ source) :
    m.text = ['{', '{'] ++ m.body ++ ['}', '}'] ∧ '}' ∉ m.body := by
  obtain ⟨⟨rest, hsplit⟩, hbody, hclose⟩ := MarkerForm.of_mem_markersFrom h
  have hhead : m.head = ['{', '{'] := ((Pattern.split?_literal_eq_some_iff (by decide)).mp hsplit).1
  refine ⟨?_, hbody⟩
  rw [Marker.text, hhead, hclose]
  rfl

/-! ### Tags -/

/-- What an opening tag that was found is, and where it stands. Its name is as long as it can be. -/
theorem standsAt_of_mem_openingTagsFrom {source : List Char} {pos : Nat} {text : List Char}
    (htext : source.drop pos = text) {tag : OpeningTag} (h : tag ∈ openingTagsFrom pos text) :
    StandsAt source tag.start tag.text ∧ tag.name ≠ [] ∧
      tag.content.head?.any isWord = false := by
  fun_induction openingTagsFrom pos text with
  | case1 => simp at h
  | case2 => simp at h
  | case3 pos text o hfind content later hclose ih =>
    subst htext
    have hrest := append_of_splitFirst? hclose
    rcases List.mem_cons.mp h with rfl | h
    · obtain ⟨name, hmatched, hdrop, hne, hword, hhead⟩ :=
        split?_openTag_eq_some_iff.mp (Pattern.split?_of_find? hfind).1
      have hname : tagName o.matched = name := by rw [hmatched, tagName_openTag hword]
      have htag : source.drop o.start =
          OpeningTag.text ⟨o.start, tagName o.matched, content⟩ ++ later := by
        rw [hdrop, hrest]
        simp [OpeningTag.text, hname]
      refine ⟨.of_drop htag, by rw [hname]; exact hne, ?_⟩
      -- the content begins where the name had to stop
      rw [hrest] at hhead
      cases content with
      | nil => rfl
      | cons c content => simpa using hhead
    · exact ih (drop_of_openingTag hfind hclose) h

/-- What was found one after the other was matched where it stands. -/
private theorem Pattern.split?_of_mem_findAll {pattern : Pattern} {source : List Char} {pos : Nat}
    {text : List Char} (htext : source.drop pos = text) {o : Occurrence}
    (h : o ∈ pattern.findAll pos text) :
    pattern.split? (source.drop o.start) = some (o.matched, o.rest) := by
  fun_induction Pattern.findAll pattern pos text with
  | case1 => simp at h
  | case2 pos text first hfind ih =>
    subst htext
    rcases List.mem_cons.mp h with rfl | h
    · exact (Pattern.split?_of_find? hfind).1
    · exact ih (Pattern.drop_stop_of_find? hfind) h

/-- What a closing tag that was found is, and where it stands. -/
theorem standsAt_of_mem_closingTags {source : List Char} {tag : ClosingTag}
    (h : tag ∈ closingTags source) :
    StandsAt source tag.start tag.text ∧ tag.name ≠ [] ∧ ∀ c ∈ tag.name, isWord c := by
  obtain ⟨o, ho, rfl⟩ := List.mem_map.mp h
  have hsplit := Pattern.split?_of_mem_findAll (List.drop_zero (l := source)) ho
  obtain ⟨name, hmatched, hdrop, hne, hword⟩ := split?_closingTag_eq_some_iff.mp hsplit
  have hname : tagName o.matched = name := by
    rw [hmatched]
    exact tagName_append _ rfl hword rfl
  have htag : source.drop o.start = ClosingTag.text ⟨o.start, tagName o.matched⟩ ++ o.rest := by
    rw [hdrop]
    simp [ClosingTag.text, hname]
  exact ⟨.of_drop htag, by rw [hname]; exact hne, by rw [hname]; exact hword⟩

/-! ### Braces and loops -/

/-- An excess closing brace stands where the count of depths says. -/
private theorem standsAt_of_mem_excessClosersFrom {source : List Char} {pos : Nat} {depth : Int}
    {text : List Char} (htext : source.drop pos = text) {offset : Nat}
    (h : offset ∈ excessClosersFrom pos depth text) : StandsAt source offset ['}'] := by
  induction text generalizing pos depth with
  | nil => simp [excessClosersFrom] at h
  | cons c text ih =>
    rw [excessClosersFrom] at h
    split at h
    · next hclose =>
      rcases List.mem_cons.mp h with rfl | h
      · obtain ⟨rfl, -⟩ := hclose
        exact .of_drop htext
      · exact ih (drop_succ_of_cons htext) h
    · exact ih (drop_succ_of_cons htext) h

/-- What the place of nested loops is. -/
private theorem slice_of_nestedLoop? {source : List Char} {span : Span}
    (h : nestedLoop? source = some span) :
    span.start < span.stop ∧ span.stop ≤ source.length ∧
      ['{', '{', '#', 'f', 'o', 'r'] <+: span.slice source ∧
      ['{', '{', '/', 'f', 'o', 'r', '}', '}'] <:+ span.slice source := by
  obtain ⟨outer, inner, innerEnd, outerEnd, houter, hinner, hinnerEnd, houterEnd, hstart, hstop⟩ :=
    nestedLoop?_eq_some_iff.mp h
  have hmem : outer ∈ loopTag.markers source := List.mem_of_head? houter
  -- the first tag begins with the mark of a loop
  obtain ⟨⟨rest, hsplit⟩, -, -⟩ := MarkerForm.of_mem_markersFrom hmem
  obtain ⟨piece, hhead, -, -⟩ :=
    (Pattern.split?_marked_eq_some_iff append_of_wordEnd? (by decide)).mp hsplit
  have hopen : StandsAt source span.start ['{', '{', '#', 'f', 'o', 'r'] := by
    rw [hstart]
    refine List.IsPrefix.trans ?_ (MarkerForm.standsAt_of_mem hmem)
    rw [Marker.text, hhead]
    simp
  -- the last one is the closing tag of a loop
  have hmatched : outerEnd.matched = ['{', '{', '/', 'f', 'o', 'r', '}', '}'] :=
    ((Pattern.split?_literal_eq_some_iff (by decide)).mp
      (Pattern.split?_of_find? houterEnd).1).1
  have hclose : StandsAt source outerEnd.start ['{', '{', '/', 'f', 'o', 'r', '}', '}'] :=
    .of_drop (hmatched ▸ Pattern.drop_start_of_find? houterEnd)
  have hend : span.stop = outerEnd.start + 8 := by
    rw [hstop, Occurrence.stop, hmatched]
    rfl
  have horder : span.start ≤ outerEnd.start := by
    have h₁ := le_start_of_nextLoopTag? hinner
    have h₂ := le_start_of_nextLoopEnd? hinnerEnd
    have h₃ := le_start_of_nextLoopEnd? houterEnd
    simp only [Marker.stop, Occurrence.stop] at h₁ h₂ h₃
    omega
  have hbound := hclose.stop_le (by simp)
  refine ⟨by omega, by rw [hend]; exact hbound, hopen.prefix_slice ?_,
    hclose.suffix_slice horder hend⟩
  simp only [List.length_cons, List.length_nil]
  omega

end Markup

/-! ### What findings name -/

/-- A piece of a template is a tag that is opened, and the message says that it is left open: a
mark, a name as long as it can be, and two closing braces at the end and nowhere else; name and
offset are those of the message. -/
def NamesOpeningTag (message : String) (start : Nat) (piece : List Char) : Prop :=
  ∃ name rest, piece = ['{', '{', '#'] ++ name ++ rest ∧ name ≠ [] ∧ (∀ c ∈ name, isWord c) ∧
    rest.head?.any isWord = false ∧ ['}', '}'] <:+ piece ∧
    (∀ before later, piece = before ++ ['}', '}'] ++ later → later = []) ∧
    message = "Unclosed tag \"\x7b\x7b#" ++ String.ofList name ++ "\x7d\x7d\" at position " ++
      toString start

/-- A piece of a template is a closing tag, and the message says that it is unmatched; name and
offset are those of the message. -/
def NamesClosingTag (message : String) (start : Nat) (piece : List Char) : Prop :=
  ∃ name, piece = ['{', '{', '/'] ++ name ++ ['}', '}'] ∧ name ≠ [] ∧ (∀ c ∈ name, isWord c) ∧
    message = "Unmatched closing tag \"\x7b\x7b/" ++ String.ofList name ++
      "\x7d\x7d\" at position " ++ toString start

namespace Kind

/-- The piece of a template at an offset is what a finding of a code with a message is about. -/
def Names (message : String) (start : Nat) (piece : List Char) : Kind → Prop
  | .unmatchedTag => NamesOpeningTag message start piece ∨ NamesClosingTag message start piece
  | .emptyExpression =>
    ∃ blanks, piece = ['{', '{'] ++ blanks ++ ['}', '}'] ∧ ∀ c ∈ blanks, isBlank c
  | .unmatchedBrackets => piece = ['}'] ∧ message = "Unmatched closing brackets"
  | .nilCheck =>
    ∃ body, piece = ['{', '{'] ++ body ++ ['}', '}'] ∧ '}' ∉ body ∧
      message = "Consider adding nil check for expression: " ++ String.ofList piece
  | .nestedLoops =>
    ['{', '{', '#', 'f', 'o', 'r'] <+: piece ∧
      ['{', '{', '/', 'f', 'o', 'r', '}', '}'] <:+ piece
  | .noForms | .excessiveRawOutput | .missingAltText | .dataOptimization | .repeatedExpression =>
    False

/-- Findings of the code with this message are about the template as a whole. -/
def LacksPlace (message : String) : Kind → Prop
  | .noForms | .excessiveRawOutput | .missingAltText | .dataOptimization | .repeatedExpression =>
    True
  | .unmatchedBrackets => message = "Unmatched opening brackets"
  | .unmatchedTag | .emptyExpression | .nilCheck | .nestedLoops => False

/-- A finding of a code has a place unless the code and the message have none, and then the
template holds there what the finding is about. -/
structure Anchors (kind : Kind) (source : List Char) (d : Diagnostic) : Prop where
  span_eq_none_iff : d.span = none ↔ kind.LacksPlace d.message
  names : ∀ span, d.span = some span → span.start < span.stop ∧ span.stop ≤ source.length ∧
    kind.Names d.message span.start (span.slice source)

variable {options : Options} {source : List Char} {d : Diagnostic}

private theorem Anchors.of_span {kind : Kind} {span : Span} (hspan : d.span = some span)
    (hplace : ¬ kind.LacksPlace d.message) (hlt : span.start < span.stop)
    (hle : span.stop ≤ source.length)
    (hnames : kind.Names d.message span.start (span.slice source)) : kind.Anchors source d := by
  refine ⟨?_, fun other hother => ?_⟩
  · rw [hspan]
    exact iff_of_false (by simp) hplace
  · obtain rfl := Option.some.inj (hspan.symm.trans hother)
    exact ⟨hlt, hle, hnames⟩

/-- A finding whose place is a piece of the template. -/
private theorem Anchors.of_standsAt {kind : Kind} {start : Nat} {piece : List Char}
    (hpiece : StandsAt source start piece) (hne : piece ≠ [])
    (hspan : d.span = some (Span.ofLength start piece.length))
    (hplace : ¬ kind.LacksPlace d.message) (hnames : kind.Names d.message start piece) :
    kind.Anchors source d := by
  have hpos := List.length_pos_iff.mpr hne
  refine .of_span hspan hplace ?_ (hpiece.stop_le hne) ?_
  · exact Nat.lt_add_of_pos_right hpos
  · rw [hpiece.slice_ofLength]
    exact hnames

private theorem Anchors.of_mem_when {kind : Kind} {spec : Spec} {holds : Bool}
    (h : d ∈ spec.when holds) (hplace : kind.LacksPlace spec.message) : kind.Anchors source d := by
  obtain rfl := Spec.eq_worded_of_mem_when h
  exact ⟨iff_of_true rfl hplace, fun span hspan => nomatch hspan⟩

private theorem anchors_unclosed {tag : OpeningTag} (h : tag ∈ unclosedTags source) :
    Kind.unmatchedTag.Anchors source tag.unclosed := by
  have htag : tag ∈ openingTags source :=
    List.mem_of_mem_filter (List.mem_of_mem_filter h)
  obtain ⟨hstands, hne, hcontent⟩ := standsAt_of_mem_openingTagsFrom rfl htag
  obtain ⟨hword, hclose⟩ := of_mem_openingTagsFrom htag
  refine .of_standsAt hstands (by simp [OpeningTag.text]) rfl id (.inl ?_)
  refine ⟨tag.name, tag.content ++ closingBraces, ?_, hne, hword, ?_, ?_, ?_, rfl⟩
  · simp [OpeningTag.text]
  · cases hhead : tag.content with
    | nil => rfl
    | cons c content => simpa [hhead] using hcontent
  · exact List.suffix_append _ closingBraces
  · exact fun before later => OpeningTag.eq_nil_of_text_eq hword hclose

private theorem anchors_unopened {tag : ClosingTag} (h : tag ∈ unopenedTags source) :
    Kind.unmatchedTag.Anchors source tag.unopened := by
  obtain ⟨hstands, hne, hword⟩ := standsAt_of_mem_closingTags (List.mem_of_mem_filter h)
  refine .of_standsAt hstands (by simp [ClosingTag.text]) rfl id (.inr ?_)
  exact ⟨tag.name, rfl, hne, hword, rfl⟩

/-- Every finding of every rule is anchored. -/
private theorem anchors_of_mem_findings {kind : Kind} (h : d ∈ kind.findings options source) :
    kind.Anchors source d := by
  cases kind with
  | dataOptimization => exact .of_mem_when h trivial
  | emptyExpression =>
    obtain ⟨m, hm, rfl⟩ := List.mem_map.mp h
    obtain ⟨hm, hblank⟩ := List.mem_filter.mp hm
    obtain ⟨htext, -⟩ := text_of_mem_expressionMarkers hm
    refine .of_standsAt (MarkerForm.standsAt_of_mem hm) (by simp [htext]) rfl id ?_
    exact ⟨m.body, htext, trim_eq_nil_iff.mp (List.isEmpty_iff.mp hblank)⟩
  | excessiveRawOutput => exact .of_mem_when h trivial
  | missingAltText => exact .of_mem_when h trivial
  | nestedLoops =>
    obtain ⟨span, hspan, rfl⟩ := List.mem_map.mp h
    obtain ⟨hlt, hle, hopen, hclose⟩ := slice_of_nestedLoop? (Option.mem_toList.mp hspan)
    exact .of_span rfl id hlt hle ⟨hopen, hclose⟩
  | nilCheck =>
    obtain ⟨m, hm, rfl⟩ := List.mem_map.mp h
    have hmarker := List.mem_of_mem_filter (List.mem_of_mem_filter hm)
    obtain ⟨htext, hbody⟩ := text_of_mem_expressionMarkers hmarker
    refine .of_standsAt (MarkerForm.standsAt_of_mem hmarker) (by simp [htext]) rfl id ?_
    exact ⟨m.body, htext, hbody, rfl⟩
  | noForms => exact .of_mem_when h trivial
  | repeatedExpression =>
    obtain ⟨entry, -, rfl⟩ := List.mem_map.mp h
    exact ⟨iff_of_true rfl trivial, fun span hspan => nomatch hspan⟩
  | unmatchedBrackets =>
    rcases List.mem_append.mp h with h | h
    · obtain ⟨offset, hoffset, rfl⟩ := List.mem_map.mp h
      have hplace : ¬ Kind.unmatchedBrackets.LacksPlace
          Catalogue.unmatchedClosingBrackets.message := by
        unfold LacksPlace
        decide
      exact .of_standsAt (standsAt_of_mem_excessClosersFrom rfl hoffset) (by simp) rfl hplace
        ⟨rfl, rfl⟩
    · exact .of_mem_when h rfl
  | unmatchedTag =>
    rcases List.mem_append.mp h with h | h
    · obtain ⟨tag, htag, rfl⟩ := List.mem_map.mp h
      exact anchors_unclosed htag
    · obtain ⟨tag, htag, rfl⟩ := List.mem_map.mp h
      exact anchors_unopened htag

end Kind

/-- **Findings point at what they name.** Whatever the template and the options, every finding has
a place exactly if its code and its message are about one, the place lies inside the template and
is not empty, and what stands there is what the finding is about. -/
theorem validate_names (source : List Char) (options : Options) :
    ∃ report, validate source options = .ok report ∧
      ∀ d ∈ report.diagnostics, ∃ kind : Kind, d.code = kind.code ∧
        (d.span = none ↔ kind.LacksPlace d.message) ∧
        ∀ span, d.span = some span → span.start < span.stop ∧ span.stop ≤ source.length ∧
          kind.Names d.message span.start (span.slice source) := by
  refine ⟨options.report source, validate_eq_ok source options, fun d hd => ?_⟩
  have hfound : d ∈ options.findings source := by
    simp only [Report.diagnostics, Options.report, List.mem_append, List.mem_filter] at hd
    rcases hd with (hd | hd) | hd
    · exact hd.1
    · exact hd.1
    · exact hd.1
  obtain ⟨kind, -, hkind⟩ := List.mem_flatMap.mp hfound
  have hanchors := Kind.anchors_of_mem_findings hkind
  exact ⟨kind, Kind.code_of_mem_findings hkind, hanchors.span_eq_none_iff, hanchors.names⟩

end TemplateLint
