import TemplateLint.Markup.Loop
import TemplateLint.Proofs.Findings
import TemplateLint.Proofs.TokenScan

/-!
# Loops that follow one another

A `LoopSequence` is a template in which loops only follow one another: no loop holds a tag, and
between the loops there is plain text. The search for nested loops does not ask which closing tag
belongs to which loop, so what it makes of such a template depends on the number of loops alone
(`nestedLoop?_text`). One loop or two are not taken for nested ones. Of three and more it takes the
tags of the first two and the closing tags of the second and the third, and reports everything from
the first loop to the third.

Each of the four searches either takes the next tag or passes over what stands before it; there is
one lemma for each, about a text of which only the part in front is known.
-/

namespace TemplateLint.Markup

open TemplateLint.Text

/-! ### Sequences of loops -/

/-- A loop that holds no tags, and the plain text between it and the next one. -/
structure PlainLoop where
  /-- What stands in its tag behind the word `for`. -/
  header : List Char
  body : List Char
  /-- The text behind the loop. -/
  gap : List Char
  /-- The header is a space and at least one more character. -/
  header_eq : ∃ c rest, header = ' ' :: c :: rest
  header_braceFree : ∀ c ∈ header, isBrace c = false
  body_braceFree : ∀ c ∈ body, isBrace c = false
  gap_braceFree : ∀ c ∈ gap, isBrace c = false

/-- A template of loops that follow one another. -/
structure LoopSequence where
  /-- The text in front of the first loop. -/
  lead : List Char
  loops : List PlainLoop
  lead_braceFree : ∀ c ∈ lead, isBrace c = false

namespace PlainLoop

def openingText (loop : PlainLoop) : List Char :=
  braced ('#' :: 'f' :: 'o' :: 'r' :: loop.header)

/-- The closing tag of every loop. -/
def closingText : List Char :=
  braced ['/', 'f', 'o', 'r']

/-- The loop with the text behind it. -/
def text (loop : PlainLoop) : List Char :=
  loop.openingText ++ (loop.body ++ (closingText ++ loop.gap))

end PlainLoop

/-- The source text of a sequence of loops. -/
def LoopSequence.text (seq : LoopSequence) : List Char :=
  seq.lead ++ seq.loops.flatMap PlainLoop.text

/-! ### Loop tags -/

/-- Loop tags are looked for where two braces and a hash stand. -/
private theorem beginsWith_loop : Head.loop.pattern.BeginsWith ['{', '{', '#'] := by
  intro text hnot
  refine Pattern.beginsWith_marked append_of_wordEnd? (by decide) fun hmark => hnot ?_
  exact List.IsPrefix.trans (by decide) hmark

/-- Loops are closed where two braces and a slash stand. -/
private theorem beginsWith_loopClosingTag : loopClosingTag.BeginsWith ['{', '{', '/'] := by
  intro text hnot
  refine Pattern.beginsWith_literal (by decide) fun hmark => hnot ?_
  exact List.IsPrefix.trans (by decide) hmark

private theorem nextLoopTag?_congr {source : List Char} {i j : Nat}
    (h : Head.loop.pattern.find? i (source.drop i) = Head.loop.pattern.find? j (source.drop j)) :
    nextLoopTag? source i = nextLoopTag? source j := by
  have hmarkers : loopTag.markersFrom i (source.drop i) =
      loopTag.markersFrom j (source.drop j) := by
    have hhead : loopTag.head = Head.loop := rfl
    rw [MarkerForm.markersFrom_eq, MarkerForm.markersFrom_eq _ j, hhead, h]
  rw [nextLoopTag?, nextLoopTag?, MarkerForm.markers, MarkerForm.markers, Int.toNat_natCast,
    Int.toNat_natCast, hmarkers]

section Searches

variable {source piece later : List Char} {offset : Nat}

/-- Plain text is passed over in the search for a loop. -/
private theorem nextLoopTag?_plain (hpiece : '{' ∉ piece)
    (h : source.drop offset = piece ++ later) :
    nextLoopTag? source offset = nextLoopTag? source (offset + piece.length) := by
  refine nextLoopTag?_congr ?_
  rw [drop_add_length h, h, Pattern.find?_append beginsWith_loop offset hpiece]

/-- The tag of a loop is found behind plain text. -/
private theorem nextLoopTag?_of_drop (loop : PlainLoop) (hpiece : '{' ∉ piece)
    (h : source.drop offset = piece ++ (loop.openingText ++ later)) :
    ∃ m, nextLoopTag? source offset = some m ∧ m.start = offset + piece.length ∧
      m.stop = offset + piece.length + loop.openingText.length ∧ source.drop m.stop = later := by
  obtain ⟨c, rest, hheader⟩ := loop.header_eq
  have hsplit : Head.loop.pattern.split? (source.drop (offset + piece.length)) =
      some (['{', '{', '#', 'f', 'o', 'r'], loop.header ++ '}' :: '}' :: later) := by
    rw [drop_add_length h]
    refine (Pattern.split?_marked_eq_some_iff append_of_wordEnd? (by decide)).mpr ⟨[], rfl, ?_, ?_⟩
    · simp [PlainLoop.openingText, braced, closingBraces]
    · simp [wordEnd?, hheader]
  have hmarkers := loopTag.markersFrom_of_split? (offset + piece.length) hsplit
    (not_mem_of_braceFree loop.header_braceFree rfl)
    (by simp [MarkerForm.accepts, loopTag, hheader])
  let marker : Marker :=
    ⟨offset + piece.length, ['{', '{', '#', 'f', 'o', 'r'], loop.header, ['}', '}']⟩
  have hnext : nextLoopTag? source offset = some marker := by
    rw [nextLoopTag?_plain hpiece h, nextLoopTag?, MarkerForm.markers, Int.toNat_natCast, hmarkers]
    rfl
  have hstop : marker.stop = offset + piece.length + loop.openingText.length := by
    simp only [marker, Marker.stop, Marker.text, PlainLoop.openingText, braced, closingBraces,
      List.length_append, List.length_cons, List.length_nil]
    omega
  refine ⟨marker, hnext, rfl, hstop, ?_⟩
  rw [hstop]
  exact drop_add_length (drop_add_length h)

/-- The rest of a loop is passed over in the search for the next one. -/
private theorem nextLoopTag?_skip (loop : PlainLoop)
    (h : source.drop offset = loop.body ++ (PlainLoop.closingText ++ later)) :
    nextLoopTag? source offset =
      nextLoopTag? source (offset + loop.body.length + PlainLoop.closingText.length) := by
  have hbody : '{' ∉ loop.body := not_mem_of_braceFree loop.body_braceFree rfl
  refine nextLoopTag?_congr ?_
  rw [drop_add_length (drop_add_length h), h, Pattern.find?_append beginsWith_loop _ hbody]
  exact Pattern.find?_braced beginsWith_loop _ (by decide) (by decide) (by decide) later

private theorem nextLoopTag?_eq_none (h : '{' ∉ source.drop offset) :
    nextLoopTag? source offset = none := by
  have hfind : Head.loop.pattern.find? offset (source.drop offset) = none := by
    rw [← List.append_nil (source.drop offset), Pattern.find?_append beginsWith_loop _ h]
    rfl
  have hhead : loopTag.head = Head.loop := rfl
  rw [nextLoopTag?, MarkerForm.markers, Int.toNat_natCast, MarkerForm.markersFrom_eq, hhead, hfind]
  rfl

/-! ### Closing tags of loops -/

/-- A closing tag is found behind plain text. -/
private theorem nextLoopEnd?_of_drop (hpiece : '{' ∉ piece)
    (h : source.drop offset = piece ++ (PlainLoop.closingText ++ later)) :
    ∃ o, nextLoopEnd? source offset = some o ∧
      o.stop = offset + piece.length + PlainLoop.closingText.length ∧
        source.drop o.stop = later := by
  have hsplit : loopClosingTag.split? (PlainLoop.closingText ++ later) =
      some (PlainLoop.closingText, later) :=
    (Pattern.split?_literal_eq_some_iff (by decide)).mpr ⟨rfl, rfl⟩
  refine ⟨⟨offset + piece.length, PlainLoop.closingText, later⟩, ?_, rfl, ?_⟩
  · rw [nextLoopEnd?, h, Pattern.find?_append beginsWith_loopClosingTag offset hpiece,
      Pattern.find?_of_split? _ hsplit]
  · exact drop_add_length (drop_add_length h)

/-- The tag of a loop is passed over in the search for a closing tag. -/
private theorem nextLoopEnd?_skip (loop : PlainLoop) (hpiece : '{' ∉ piece)
    (h : source.drop offset = piece ++ (loop.openingText ++ later)) :
    nextLoopEnd? source offset =
      nextLoopEnd? source (offset + piece.length + loop.openingText.length) := by
  have hheader : '{' ∉ 'f' :: 'o' :: 'r' :: loop.header := by
    simpa using not_mem_of_braceFree loop.header_braceFree rfl
  rw [nextLoopEnd?, nextLoopEnd?, drop_add_length (drop_add_length h), h,
    Pattern.find?_append beginsWith_loopClosingTag offset hpiece]
  exact Pattern.find?_braced beginsWith_loopClosingTag _ (by decide) (by decide) hheader later

private theorem nextLoopEnd?_eq_none (h : '{' ∉ source.drop offset) :
    nextLoopEnd? source offset = none := by
  rw [nextLoopEnd?, ← List.append_nil (source.drop offset),
    Pattern.find?_append beginsWith_loopClosingTag _ h]
  rfl

end Searches

/-! ### What is reported -/

private theorem PlainLoop.not_mem_gap (loop : PlainLoop) : '{' ∉ loop.gap :=
  not_mem_of_braceFree loop.gap_braceFree rfl

/-- The tag of the first loop is the first loop tag. -/
private theorem LoopSequence.nextLoopTag?_text {seq : LoopSequence} {first : PlainLoop}
    {later : List PlainLoop} (h : seq.loops = first :: later) :
    ∃ m, nextLoopTag? seq.text 0 = some m ∧ m.start = seq.lead.length ∧
      m.stop = seq.lead.length + first.openingText.length ∧
      seq.text.drop m.stop = first.body ++ (PlainLoop.closingText ++
        (first.gap ++ later.flatMap PlainLoop.text)) := by
  have htext : seq.text.drop 0 = seq.lead ++ (first.openingText ++ (first.body ++
      (PlainLoop.closingText ++ (first.gap ++ later.flatMap PlainLoop.text)))) := by
    simp [LoopSequence.text, h, PlainLoop.text]
  have hlead : '{' ∉ seq.lead := not_mem_of_braceFree seq.lead_braceFree rfl
  simpa using nextLoopTag?_of_drop first hlead htext

/-- The next loop tag is that of the second loop, and the closing tag behind it is its own. -/
private theorem LoopSequence.nextLoopEnd?_text {seq : LoopSequence} {first second : PlainLoop}
    {later : List PlainLoop} (h : seq.loops = first :: second :: later) :
    ∃ outer inner innerEnd, nextLoopTag? seq.text 0 = some outer ∧
      nextLoopTag? seq.text outer.stop = some inner ∧
      nextLoopEnd? seq.text inner.stop = some innerEnd ∧ outer.start = seq.lead.length ∧
      innerEnd.stop + second.gap.length = seq.lead.length + (first.text ++ second.text).length ∧
      seq.text.drop innerEnd.stop = second.gap ++ later.flatMap PlainLoop.text := by
  obtain ⟨outer, houter, hstart, hstop, hbody⟩ := nextLoopTag?_text h
  -- the rest of the first loop and the plain text behind it are passed over
  have hgap := drop_add_length (drop_add_length hbody)
  rw [List.flatMap_cons, PlainLoop.text, List.append_assoc, List.append_assoc,
    List.append_assoc] at hgap
  obtain ⟨inner, hinner, -, hinnerStop, hbody₂⟩ :=
    nextLoopTag?_of_drop second first.not_mem_gap hgap
  rw [← nextLoopTag?_skip first hbody] at hinner
  have hplain : '{' ∉ second.body := not_mem_of_braceFree second.body_braceFree rfl
  obtain ⟨innerEnd, hinnerEnd, hinnerEndStop, hgap₂⟩ := nextLoopEnd?_of_drop hplain hbody₂
  refine ⟨outer, inner, innerEnd, houter, hinner, hinnerEnd, hstart, ?_, hgap₂⟩
  simp only [PlainLoop.text, List.length_append]
  omega

/-- **Loops that follow one another are taken for nested ones as soon as there are three**, and then
everything from the first of them to the end of the third is reported. -/
theorem nestedLoop?_text (seq : LoopSequence) :
    nestedLoop? seq.text =
      match seq.loops with
      | first :: second :: third :: _ =>
        some (Span.ofLength seq.lead.length (first.text ++ second.text ++ third.openingText ++
          third.body ++ PlainLoop.closingText).length)
      | _ => none := by
  match hloops : seq.loops with
  | [] =>
    have hplain : '{' ∉ seq.text.drop 0 := by
      simpa [LoopSequence.text, hloops] using not_mem_of_braceFree seq.lead_braceFree rfl
    refine nestedLoop?_eq_none_iff.mpr fun outer _ _ houter => ?_
    simp [nextLoopTag?_eq_none hplain] at houter
  | [first] =>
    obtain ⟨outer, houter, -, -, hbody⟩ := LoopSequence.nextLoopTag?_text hloops
    have hplain := first.not_mem_gap
    have hgap := drop_add_length (drop_add_length hbody)
    rw [List.flatMap_nil, List.append_nil] at hgap
    rw [← hgap] at hplain
    refine nestedLoop?_eq_none_iff.mpr fun outer' inner _ houter' hinner => ?_
    obtain rfl : outer = outer' := Option.some.inj (houter.symm.trans houter')
    rw [nextLoopTag?_skip first hbody, nextLoopTag?_eq_none hplain] at hinner
    simp at hinner
  | [first, second] =>
    obtain ⟨outer, inner, innerEnd, houter, hinner, hinnerEnd, -, -, hgap⟩ :=
      LoopSequence.nextLoopEnd?_text hloops
    have hplain := second.not_mem_gap
    rw [List.flatMap_nil, List.append_nil] at hgap
    rw [← hgap] at hplain
    refine nestedLoop?_eq_none_iff.mpr fun outer' inner' innerEnd' houter' hinner' hinnerEnd' => ?_
    obtain rfl : outer = outer' := Option.some.inj (houter.symm.trans houter')
    obtain rfl : inner = inner' := Option.some.inj (hinner.symm.trans hinner')
    obtain rfl : innerEnd = innerEnd' := Option.some.inj (hinnerEnd.symm.trans hinnerEnd')
    exact nextLoopEnd?_eq_none hplain
  | first :: second :: third :: later =>
    obtain ⟨outer, inner, innerEnd, houter, hinner, hinnerEnd, hstart, hstop, hgap⟩ :=
      LoopSequence.nextLoopEnd?_text hloops
    rw [List.flatMap_cons, PlainLoop.text, List.append_assoc, List.append_assoc,
      List.append_assoc] at hgap
    have hplain : '{' ∉ third.body := not_mem_of_braceFree third.body_braceFree rfl
    -- the closing tag of the third loop is as good as one of the first
    obtain ⟨outerEnd, houterEnd, houterEndStop, -⟩ :=
      nextLoopEnd?_of_drop hplain (drop_add_length (drop_add_length hgap))
    rw [← nextLoopEnd?_skip third second.not_mem_gap hgap] at houterEnd
    refine nestedLoop?_eq_some_iff.mpr
      ⟨outer, inner, innerEnd, outerEnd, houter, hinner, hinnerEnd, houterEnd, hstart.symm, ?_⟩
    simp only [Span.ofLength, List.length_append] at hstop ⊢
    omega

/-- **Nothing is reported exactly if there are at most two loops.** -/
theorem LoopSequence.unreported_iff (seq : LoopSequence) (options : Options) :
    (nestedLoop? seq.text = none ↔ seq.loops.length ≤ 2) ∧
      (Rule.nestedLoops.check options seq.text = .ok [] ↔ seq.loops.length ≤ 2) := by
  have hcheck : Rule.nestedLoops.check options seq.text = .ok [] ↔
      nestedLoop? seq.text = none := by
    have hfound := Kind.nestedLoops.check_rule options seq.text
    rw [Kind.rule] at hfound
    rw [hfound, Kind.findings]
    cases nestedLoop? seq.text with
    | none => simp
    | some span => simp
  rw [hcheck, and_self, nestedLoop?_text]
  rcases seq.loops with _ | ⟨_, _ | ⟨_, _ | ⟨_, _⟩⟩⟩
  · simp
  · simp
  · simp
  · simp

/-- A loop with nothing behind it. -/
def PlainLoop.bare (header body : String) (hheader : ∃ c rest, header.toList = ' ' :: c :: rest)
    (hheaderBrace : header.toList.any isBrace = false)
    (hbodyBrace : body.toList.any isBrace = false) : PlainLoop where
  header := header.toList
  body := body.toList
  gap := []
  header_eq := hheader
  header_braceFree := fun c hc => by simpa using List.any_eq_false.mp hheaderBrace c hc
  body_braceFree := fun c hc => by simpa using List.any_eq_false.mp hbodyBrace c hc
  gap_braceFree := by simp

/-- Three loops side by side are reported, from the first to the last character. -/
theorem LoopSequence.reported_sideBySide :
    ∃ seq : LoopSequence,
      seq.text = ("\x7b\x7b#for a in x\x7d\x7d1\x7b\x7b/for\x7d\x7d" ++
        "\x7b\x7b#for b in y\x7d\x7d2\x7b\x7b/for\x7d\x7d" ++
        "\x7b\x7b#for c in z\x7d\x7d3\x7b\x7b/for\x7d\x7d").toList ∧
      nestedLoop? seq.text = some (Span.ofLength 0 72) ∧
      Rule.nestedLoops.check {} seq.text ≠ .ok [] := by
  refine ⟨⟨[], [.bare " a in x" "1" ⟨_, _, rfl⟩ rfl rfl, .bare " b in y" "2" ⟨_, _, rfl⟩ rfl rfl,
    .bare " c in z" "3" ⟨_, _, rfl⟩ rfl rfl], by simp⟩, ?_, ?_, ?_⟩
  all_goals decide +kernel

end TemplateLint.Markup
