import TemplateLint.Proofs.Buckets
import TemplateLint.Proofs.ExpressionScans
import TemplateLint.Proofs.Tallies
import TemplateLint.Report.Rendering

/-!
# The lines of a report

A report is printed line by line: a header, a blank line and the verdict, and then for each severity
its findings, numbered, one entry for each. `Report.LineByLine` says that a reader who splits the
text at line breaks gets this layout back.

An entry is one line only if it holds no line break, and a message may quote the template. So the
text has as many lines as it should have and one more for every line break that is quoted
(`Report.length_textLines_renderText`), and it is laid out line by line exactly if there is none
(`Report.lineByLine_iff`). What a run quotes are the property accesses it calls unguarded and the
expressions it calls repeated (`Options.quotes`): everything else in its messages is the wording of
the catalogue, a number or the name of a tag. `validate_lineByLine_iff` puts the two together.
-/

namespace TemplateLint

open TemplateLint.Markup TemplateLint.Text

/-! ### Lines of a text -/

namespace Text

/-- A text that is written out is the list of its characters, which can be searched. -/
private theorem notMem_toList_ofList {c : Char} {chars : List Char} (h : c ∉ chars) :
    c ∉ (String.ofList chars).toList := by
  rwa [String.toList_ofList]

private theorem newline_notMem_toString (n : Nat) : '\n' ∉ (toString n).toList := by
  intro h
  rw [Nat.toString_eq_ofList_toDigits, String.toList_ofList] at h
  have hdigit := Nat.isDigit_of_mem_toDigits (by omega) (by omega) h
  simp at hdigit

/-- The pieces of a text between its line breaks. -/
def textLines (text : String) : List String :=
  (text.toList.splitOn '\n').map String.ofList

private theorem length_splitOn (c : Char) (text : List Char) :
    (text.splitOn c).length = text.count c + 1 := by
  induction text with
  | nil => rfl
  | cons first text ih =>
    rw [List.splitOn_cons_eq_if_modifyHead, List.count_cons]
    split
    · rw [List.length_cons, ih]
    · rw [List.length_modifyHead, ih]

theorem length_textLines (text : String) :
    (textLines text).length = text.toList.count '\n' + 1 := by
  rw [textLines, List.length_map, length_splitOn]

private theorem textLines_eq_singleton {text : String} (h : '\n' ∉ text.toList) :
    textLines text = [text] := by
  rw [textLines, List.splitOn_eq_singleton h, List.map_singleton, String.ofList_toList]

private theorem intercalate_append_singleton (c : Char) {lines : List (List Char)}
    (h : lines ≠ []) :
    [c].intercalate lines ++ [c] = lines.flatMap (· ++ [c]) := by
  induction lines with
  | nil => exact absurd rfl h
  | cons line lines ih =>
    cases lines with
    | nil => simp
    | cons next lines =>
      rw [List.intercalate_cons_cons, List.append_assoc, ih (by simp)]
      rfl

/-- Every line that is printed gives its own pieces, and the last line break ends the text. -/
private theorem splitOn_flatMap_append (c : Char) (lines : List (List Char)) :
    (lines.flatMap (· ++ [c])).splitOn c = lines.flatMap (List.splitOn c) ++ [[]] := by
  induction lines with
  | nil => rfl
  | cons line lines ih =>
    rw [List.flatMap_cons, List.append_assoc, List.singleton_append,
      List.splitOn_append_cons_self, ih, List.flatMap_cons, List.append_assoc]

private theorem textLines_intercalate {lines : List String} (h : lines ≠ []) :
    textLines (String.intercalate "\n" lines ++ "\n") = lines.flatMap textLines ++ [""] := by
  have hjoined : (String.intercalate "\n" lines ++ "\n").toList =
      (lines.map String.toList).flatMap (· ++ ['\n']) := by
    rw [String.toList_append, String.toList_intercalate]
    exact intercalate_append_singleton '\n' (by simpa using h)
  rw [textLines, hjoined, splitOn_flatMap_append, List.map_append, List.flatMap_map,
    List.map_flatMap]
  rfl

private theorem length_flatMap_textLines (lines : List String) :
    (lines.flatMap textLines).length =
      lines.length + (lines.flatMap String.toList).count '\n' := by
  induction lines with
  | nil => rfl
  | cons line lines ih =>
    rw [List.flatMap_cons, List.length_append, length_textLines, ih, List.flatMap_cons,
      List.count_append, List.length_cons]
    omega

private theorem flatMap_textLines {lines : List String} (h : ∀ line ∈ lines, '\n' ∉ line.toList) :
    lines.flatMap textLines = lines := by
  rw [List.flatMap_congr fun line hline => textLines_eq_singleton (h line hline),
    List.flatMap_singleton']

end Text

/-! ### The layout of a report -/

/-- A finding under its number. -/
def Diagnostic.entry (d : Diagnostic) (number : Nat) : String :=
  toString number ++ ". " ++ d.message ++ " (" ++ d.code ++ ")"

namespace Report

/-- The lines of a section, if it is not left out. -/
def sectionLength (titleLength : Nat) (findings : List Diagnostic) : Nat :=
  if findings.isEmpty then 0 else titleLength + findings.length

/-- How many lines a report should have. -/
def lineCount (report : Report) : Nat :=
  3 + sectionLength 1 report.errors + sectionLength 3 report.warnings +
    sectionLength 3 report.suggestions

/-- The line that says whether there are errors. -/
def verdictLine (report : Report) : String :=
  if report.isValid then "Template is valid!" else "Template has errors:"

/-- On which line the first finding of a severity should stand, counted from zero. -/
def firstLine (report : Report) : Severity → Nat
  | .error => 3 + 1
  | .warning => 3 + sectionLength 1 report.errors + 3
  | .suggestion => 3 + sectionLength 1 report.errors + sectionLength 3 report.warnings + 3

/-- Splitting the text of a report at line breaks gives its layout back. -/
structure LineByLine (report : Report) (name : Option String) : Prop where
  /-- There are as many lines as there should be, and each of them is ended. -/
  length_eq : (textLines (report.renderText name false)).length = report.lineCount + 1
  getLast?_eq : (textLines (report.renderText name false)).getLast? = some ""
  /-- The first three lines are the header, a blank line and the verdict. -/
  take_eq : (textLines (report.renderText name false)).take 3 =
    [header name, "", report.verdictLine]
  /-- Every finding stands on a line of its own, below the finding before it. -/
  entry_eq : ∀ severity k d, (report.bucket severity)[k]? = some d →
    (textLines (report.renderText name false))[report.firstLine severity + k]? =
      some (d.entry (k + 1))

variable {report : Report} {name : Option String}

/-- The findings of a section below its title. -/
def block (title : List String) (findings : List Diagnostic) : List String :=
  if findings.isEmpty then [] else title ++ numbered false findings

private theorem numbered_eq_map (findings : List Diagnostic) :
    numbered false findings = (findings.zipIdx 1).map fun (d, number) => d.entry number := by
  simp only [numbered, Diagnostic.lines, Bool.false_and, Bool.false_eq_true, if_false]
  exact List.map_eq_flatMap.symm

theorem lines_eq_append (report : Report) (name : Option String) :
    report.lines name false =
      [header name, "", report.verdictLine] ++ block [""] report.errors ++
        block ["", "Warnings:", ""] report.warnings ++
        block ["", "Suggestions:", ""] report.suggestions := by
  have hverdict : report.verdict false = [report.verdictLine] ++ block [""] report.errors := by
    rw [verdict, verdictLine, isValid, block]
    split
    · rfl
    · rfl
  rw [lines, hverdict]
  rfl

private theorem length_block (title : List String) (findings : List Diagnostic) :
    (block title findings).length = sectionLength title.length findings := by
  rw [block, sectionLength]
  split
  · rfl
  · rw [List.length_append, numbered_eq_map, List.length_map, List.length_zipIdx]

/-- Behind the title of a section, findings stand one below the other. -/
private theorem getElem?_block (title : List String) {findings : List Diagnostic} {k : Nat}
    {d : Diagnostic} (h : findings[k]? = some d) :
    (block title findings)[title.length + k]? = some (d.entry (k + 1)) := by
  have hne : findings.isEmpty = false := by
    cases findings with
    | nil => simp at h
    | cons first later => rfl
  rw [block, hne, if_neg Bool.false_ne_true, List.getElem?_append_right (Nat.le_add_right _ _),
    Nat.add_sub_cancel_left, numbered_eq_map, List.getElem?_map, List.getElem?_zipIdx, h,
    Nat.add_comm 1 k]
  rfl

private theorem getElem?_append_block {front title later : List String} {findings : List Diagnostic}
    {first k : Nat} {d : Diagnostic} (hfirst : first = front.length + title.length)
    (h : findings[k]? = some d) :
    (front ++ block title findings ++ later)[first + k]? = some (d.entry (k + 1)) := by
  have hblock := getElem?_block title h
  obtain ⟨hlt, -⟩ := List.getElem?_eq_some_iff.mp hblock
  rw [hfirst, List.append_assoc, Nat.add_assoc,
    List.getElem?_append_right (Nat.le_add_right _ _), Nat.add_sub_cancel_left,
    List.getElem?_append_left hlt, hblock]

private theorem getElem?_lines (name : Option String) {severity : Severity} {k : Nat}
    {d : Diagnostic} (h : (report.bucket severity)[k]? = some d) :
    (report.lines name false)[report.firstLine severity + k]? = some (d.entry (k + 1)) := by
  rw [lines_eq_append]
  cases severity with
  | error =>
    rw [List.append_assoc]
    exact getElem?_append_block rfl h
  | warning =>
    refine getElem?_append_block ?_ h
    rw [List.length_append, length_block]
    rfl
  | suggestion =>
    rw [← List.append_nil (_ ++ block _ report.suggestions)]
    refine getElem?_append_block ?_ h
    rw [List.length_append, List.length_append, length_block, length_block]
    rfl

/-! ### Line breaks in a report -/

private theorem count_entry {d : Diagnostic} (hcode : '\n' ∉ d.code.toList) (number : Nat) :
    (d.entry number).toList.count '\n' = d.message.toList.count '\n' := by
  have hnumber := List.count_eq_zero.mpr (newline_notMem_toString number)
  simp only [Diagnostic.entry, String.toList_append, List.count_append, hnumber,
    List.count_eq_zero.mpr hcode]
  simp

private theorem count_numbered {findings : List Diagnostic}
    (hcodes : ∀ d ∈ findings, '\n' ∉ d.code.toList) :
    ((numbered false findings).flatMap String.toList).count '\n' =
      (findings.flatMap fun d => d.message.toList).count '\n' := by
  rw [numbered_eq_map]
  generalize 1 = number
  induction findings generalizing number with
  | nil => rfl
  | cons d later ih =>
    obtain ⟨hcode, hlater⟩ := List.forall_mem_cons.mp hcodes
    rw [List.zipIdx_cons, List.map_cons, List.flatMap_cons, List.flatMap_cons, List.count_append,
      List.count_append, count_entry hcode, ih hlater]

/-- The line breaks of a section are those of its messages. -/
private theorem count_block {title : List String} (htitle : '\n' ∉ title.flatMap String.toList)
    {findings : List Diagnostic} (hcodes : ∀ d ∈ findings, '\n' ∉ d.code.toList) :
    ((block title findings).flatMap String.toList).count '\n' =
      (findings.flatMap fun d => d.message.toList).count '\n' := by
  rw [block]
  split
  · next hempty =>
    rw [List.isEmpty_iff.mp hempty]
    rfl
  · rw [List.flatMap_append, List.count_append, count_numbered hcodes,
      List.count_eq_zero.mpr htitle, Nat.zero_add]

private theorem newline_notMem_header (hname : ∀ text ∈ name, '\n' ∉ text.toList) :
    '\n' ∉ (header name).toList := by
  have htext : '\n' ∉ (name.getD "").toList := by
    cases name with
    | none => exact List.not_mem_nil
    | some text => exact hname text (Option.mem_some_self text)
  unfold header
  rw [String.toList_append, List.mem_append, not_or]
  refine ⟨notMem_toList_ofList (by decide), ?_⟩
  split
  · exact List.not_mem_nil
  · rw [String.toList_append, List.mem_append, not_or]
    exact ⟨notMem_toList_ofList (by decide), htext⟩

/-- All line breaks in the lines of a report are those of its messages. -/
private theorem count_lines (hname : ∀ text ∈ name, '\n' ∉ text.toList)
    (hcodes : ∀ d ∈ report.diagnostics, '\n' ∉ d.code.toList) :
    ((report.lines name false).flatMap String.toList).count '\n' =
      (report.diagnostics.flatMap fun d => d.message.toList).count '\n' := by
  simp only [diagnostics, List.forall_mem_append] at hcodes
  obtain ⟨⟨herrors, hwarnings⟩, hsuggestions⟩ := hcodes
  have hverdict : '\n' ∉ report.verdictLine.toList := by
    rw [verdictLine]
    split <;> simp
  have hfront : ([header name, "", report.verdictLine].flatMap String.toList).count '\n' = 0 := by
    rw [List.count_eq_zero]
    simp [newline_notMem_header hname, hverdict]
  rw [lines_eq_append, diagnostics]
  simp only [List.flatMap_append, List.count_append]
  rw [hfront, count_block (by decide) herrors, count_block (by decide) hwarnings,
    count_block (by decide) hsuggestions, Nat.zero_add]

/-- **A report has one line too many for every line break in its messages.** -/
theorem length_textLines_renderText (hname : ∀ text ∈ name, '\n' ∉ text.toList)
    (hcodes : ∀ d ∈ report.diagnostics, '\n' ∉ d.code.toList) :
    (textLines (report.renderText name false)).length =
      report.lineCount + 1 + (report.diagnostics.flatMap fun d => d.message.toList).count '\n' := by
  have hlines : (report.lines name false).length = report.lineCount := by
    simp only [lines_eq_append, List.length_append, length_block]
    rfl
  rw [renderText, textLines_intercalate (by simp [lines]), List.length_append,
    length_flatMap_textLines, count_lines hname hcodes, hlines, List.length_singleton]
  omega

/-- **A report is laid out line by line exactly if no message holds a line break.** -/
theorem lineByLine_iff (hname : ∀ text ∈ name, '\n' ∉ text.toList)
    (hcodes : ∀ d ∈ report.diagnostics, '\n' ∉ d.code.toList) :
    report.LineByLine name ↔
      '\n' ∉ report.diagnostics.flatMap fun d => d.message.toList := by
  have hlength := length_textLines_renderText hname hcodes
  rw [← List.count_eq_zero]
  constructor
  · intro h
    have hsame := h.length_eq
    omega
  · intro hzero
    -- no line of the layout is broken, so that splitting gives the layout
    have hunbroken : ∀ line ∈ report.lines name false, '\n' ∉ line.toList := by
      rw [← count_lines hname hcodes, List.count_eq_zero] at hzero
      exact fun line hline hmem => hzero (List.mem_flatMap.mpr ⟨line, hline, hmem⟩)
    have hsplit : textLines (report.renderText name false) = report.lines name false ++ [""] := by
      rw [renderText, textLines_intercalate (by simp [lines]), flatMap_textLines hunbroken]
    refine ⟨by omega, ?_, ?_, fun severity k d hd => ?_⟩
    · rw [hsplit, List.getLast?_append, List.getLast?_singleton]
      rfl
    · rw [hsplit, lines_eq_append]
      rfl
    · have hline := getElem?_lines name hd
      obtain ⟨hlt, -⟩ := List.getElem?_eq_some_iff.mp hline
      rw [hsplit, List.getElem?_append_left hlt, hline]

end Report

/-! ### What a run quotes -/

/-- Pieces that hold a character equally often hold it equally often together. -/
private theorem count_flatMap_congr {α : Type} {f g : α → List Char} {l : List α} (c : Char)
    (h : ∀ a ∈ l, (f a).count c = (g a).count c) :
    (l.flatMap f).count c = (l.flatMap g).count c := by
  rw [List.count_flatMap, List.count_flatMap]
  exact congrArg List.sum (List.map_congr_left h)

/-- No code and no wording of the catalogue holds a line break. -/
theorem Catalogue.newline_notMem {spec : Spec} (h : spec ∈ specs) :
    '\n' ∉ spec.code.toList ∧ '\n' ∉ spec.message.toList := by
  simp only [specs, List.mem_cons, List.not_mem_nil, or_false] at h
  rcases h with rfl | rfl | rfl | rfl | rfl | rfl | rfl | rfl | rfl | rfl | rfl | rfl <;>
    exact ⟨notMem_toList_ofList (by decide), notMem_toList_ofList (by decide)⟩

private theorem Spec.newline_notMem_of_mem_when {spec : Spec} (hspec : spec ∈ Catalogue.specs)
    {holds : Bool} {d : Diagnostic} (h : d ∈ spec.when holds) : '\n' ∉ d.message.toList := by
  rw [Spec.eq_worded_of_mem_when h]
  exact (Catalogue.newline_notMem hspec).2

namespace Kind

variable {options : Options} {source : List Char} {kind : Kind} {d : Diagnostic}

/-- The pieces of the template that the findings of a code quote. -/
def quotes (options : Options) (source : List Char) : Kind → List (List Char)
  | .nilCheck =>
    ((propertyAccesses source).filter fun m => !options.guards source m).map Marker.text
  | .repeatedExpression =>
    ((tally source).filter fun (expression, count) =>
      decide (options.repeatCount < count) && decide (options.repeatLength < expression.length)).map
        Prod.fst
  | _ => []

/-- The name of a tag is a word, and so holds no line break. -/
private theorem newline_notMem_tag {opening : String} {name : List Char}
    (hname : ∀ c ∈ name, isWord c) (hopening : '\n' ∉ opening.toList) (start : Nat) :
    '\n' ∉ (opening ++ String.ofList name ++ "\x7d\x7d\" at position " ++
      toString start).toList := by
  have hword : '\n' ∉ name := fun hmem => absurd (hname _ hmem) (by decide)
  simp only [String.toList_append, String.toList_ofList, List.mem_append, not_or]
  exact ⟨⟨⟨hopening, hword⟩, notMem_toList_ofList (by decide)⟩,
    newline_notMem_toString start⟩

/-- The messages of the other codes are wordings, with the name and the offset of a tag. -/
private theorem newline_notMem_message (hnil : kind ≠ .nilCheck)
    (hrepeated : kind ≠ .repeatedExpression)
    (h : d ∈ kind.findings options source) : '\n' ∉ d.message.toList := by
  cases kind with
  | nilCheck => exact absurd rfl hnil
  | repeatedExpression => exact absurd rfl hrepeated
  | dataOptimization =>
    exact Spec.newline_notMem_of_mem_when (describes_spec .dataOptimization).mem_specs h
  | emptyExpression =>
    obtain ⟨m, -, rfl⟩ := List.mem_map.mp h
    exact (Catalogue.newline_notMem (describes_spec .emptyExpression).mem_specs).2
  | excessiveRawOutput =>
    exact Spec.newline_notMem_of_mem_when (describes_spec .excessiveRawOutput).mem_specs h
  | missingAltText =>
    exact Spec.newline_notMem_of_mem_when (describes_spec .missingAltText).mem_specs h
  | nestedLoops =>
    obtain ⟨span, -, rfl⟩ := List.mem_map.mp h
    exact (Catalogue.newline_notMem (describes_spec .nestedLoops).mem_specs).2
  | noForms => exact Spec.newline_notMem_of_mem_when (describes_spec .noForms).mem_specs h
  | unmatchedBrackets =>
    rcases List.mem_append.mp h with h | h
    · obtain ⟨offset, -, rfl⟩ := List.mem_map.mp h
      exact (Catalogue.newline_notMem (describes_spec .unmatchedBrackets).mem_specs).2
    · exact Spec.newline_notMem_of_mem_when describes_unmatchedOpeningBrackets.mem_specs h
  | unmatchedTag =>
    rcases List.mem_append.mp h with h | h
    · obtain ⟨tag, htag, rfl⟩ := List.mem_map.mp h
      have hopening := List.mem_of_mem_filter (List.mem_of_mem_filter htag)
      exact newline_notMem_tag (of_mem_openingTagsFrom hopening).1
        (notMem_toList_ofList (by decide)) tag.start
    · obtain ⟨tag, htag, rfl⟩ := List.mem_map.mp h
      obtain ⟨-, -, hword⟩ := standsAt_of_mem_closingTags (List.mem_of_mem_filter htag)
      exact newline_notMem_tag hword (notMem_toList_ofList (by decide)) tag.start

/-- **The line breaks in the messages of a code are those it quotes.** -/
theorem count_messages (options : Options) (source : List Char) (kind : Kind) :
    ((kind.findings options source).flatMap fun d => d.message.toList).count '\n' =
      (kind.quotes options source).flatten.count '\n' := by
  have hnone (hnil : kind ≠ .nilCheck) (hrepeated : kind ≠ .repeatedExpression) :
      ((kind.findings options source).flatMap fun d => d.message.toList).count '\n' = 0 := by
    rw [List.count_eq_zero, List.mem_flatMap]
    rintro ⟨d, hd, hmem⟩
    exact newline_notMem_message hnil hrepeated hd hmem
  cases kind with
  | nilCheck =>
    rw [findings, quotes, List.flatMap_map, ← List.flatMap_def]
    refine count_flatMap_congr _ fun m _ => ?_
    have hopening : '\n' ∉ "Consider adding nil check for expression: ".toList :=
      notMem_toList_ofList (by decide)
    rw [Marker.unguarded, Spec.worded, String.toList_append, List.count_append,
      List.count_eq_zero.mpr hopening, Nat.zero_add, String.toList_ofList]
  | repeatedExpression =>
    rw [findings, quotes, List.flatMap_map, ← List.flatMap_def]
    refine count_flatMap_congr _ fun entry _ => ?_
    have hopening : '\n' ∉ "Complex expression used ".toList := notMem_toList_ofList (by decide)
    have hnumber := newline_notMem_toString entry.2
    have htimes : '\n' ∉ " times: ".toList := notMem_toList_ofList (by decide)
    have hadvice : '\n' ∉ ". Consider using a variable.".toList :=
      notMem_toList_ofList (by decide)
    simp only [repetition, Spec.worded, String.toList_append, String.toList_ofList,
      List.count_append, List.count_eq_zero.mpr hopening, List.count_eq_zero.mpr hnumber,
      List.count_eq_zero.mpr htimes, List.count_eq_zero.mpr hadvice, Nat.zero_add, Nat.add_zero]
  | dataOptimization | emptyExpression | excessiveRawOutput | missingAltText | nestedLoops
  | noForms | unmatchedBrackets | unmatchedTag => exact hnone (by simp) (by simp)

/-- A line break that is quoted stands in an expression of the template. -/
private theorem exists_expression_of_mem_quotes {piece : List Char}
    (h : piece ∈ kind.quotes options source) (hbreak : '\n' ∈ piece) :
    ∃ m ∈ expressions source, '\n' ∈ m.body := by
  cases kind with
  | nilCheck =>
    obtain ⟨m, hm, rfl⟩ := List.mem_map.mp h
    have haccess := List.mem_of_mem_filter hm
    rw [propertyAccesses_eq_filter] at haccess
    have hexpression := List.mem_of_mem_filter haccess
    obtain ⟨htext, -⟩ := text_of_mem_expressionMarkers hexpression
    exact ⟨m, hexpression, by simpa [htext] using hbreak⟩
  | repeatedExpression =>
    obtain ⟨entry, hentry, rfl⟩ := List.mem_map.mp h
    have hkey := Tally.mem_keys_of_mem (List.mem_of_mem_filter hentry)
    rw [tally, (Tally.counts_ofList _).mem_keys] at hkey
    obtain ⟨m, hm, hbody⟩ := List.mem_map.mp hkey
    exact ⟨m, hm, mem_of_mem_trim (hbody ▸ hbreak)⟩
  | dataOptimization | emptyExpression | excessiveRawOutput | missingAltText | nestedLoops
  | noForms | unmatchedBrackets | unmatchedTag => exact absurd h List.not_mem_nil

end Kind

namespace Options

/-- The pieces of the template that the findings of a run quote. -/
def quotes (options : Options) (source : List Char) : List (List Char) :=
  options.enabledKinds.flatMap (Kind.quotes options source)

private theorem count_messages (options : Options) (source : List Char) :
    ((options.report source).diagnostics.flatMap fun d => d.message.toList).count '\n' =
      (options.quotes source).flatten.count '\n' := by
  have hperm := Report.perm_diagnostics (ofDiagnostics_findings options source)
  rw [(hperm.flatMap_right _).count_eq, findings, quotes, List.flatMap_assoc, ← List.flatMap_id,
    List.flatMap_assoc]
  refine count_flatMap_congr _ fun kind _ => ?_
  rw [List.flatMap_id, kind.count_messages]

private theorem newline_notMem_code {options : Options} {source : List Char} :
    ∀ d ∈ (options.report source).diagnostics, '\n' ∉ d.code.toList := by
  intro d hd
  have hperm := Report.perm_diagnostics (ofDiagnostics_findings options source)
  obtain ⟨kind, -, hkind⟩ := List.mem_flatMap.mp (hperm.mem_iff.mp hd)
  obtain ⟨spec, hspec, message, span, rfl⟩ := Kind.exists_describes_of_mem_findings hkind
  exact (Catalogue.newline_notMem hspec.mem_specs).1

variable {name : Option String}

private theorem length_textLines_report (options : Options) (source : List Char)
    (hname : ∀ text ∈ name, '\n' ∉ text.toList) :
    (textLines ((options.report source).renderText name false)).length =
      (options.report source).lineCount + 1 + (options.quotes source).flatten.count '\n' := by
  rw [Report.length_textLines_renderText hname newline_notMem_code, options.count_messages]

private theorem lineByLine_report_iff (options : Options) (source : List Char)
    (hname : ∀ text ∈ name, '\n' ∉ text.toList) :
    (options.report source).LineByLine name ↔
      ∀ piece ∈ options.quotes source, '\n' ∉ piece := by
  rw [Report.lineByLine_iff hname newline_notMem_code, ← List.count_eq_zero,
    options.count_messages, List.count_eq_zero, List.mem_flatten]
  simp

end Options

/-- **A report shows one line for each finding, unless a finding quotes a line break.** A run always
gives a report. Without hints and under a name of one line, its text has the header, a blank line
and the verdict, the errors below a blank line, the warnings and the suggestions each below a title
between blank lines, and one line more for every line break in what the run quotes. So it is laid
out line by line exactly if the run quotes none; in particular if no expression of the template
goes over several lines. -/
theorem validate_lineByLine_iff (source : List Char) (options : Options) {name : Option String}
    (hname : ∀ text ∈ name, '\n' ∉ text.toList) :
    ∃ report, validate source options = .ok report ∧
      (textLines (report.renderText name false)).length =
        report.lineCount + 1 + (options.quotes source).flatten.count '\n' ∧
      (report.LineByLine name ↔ ∀ piece ∈ options.quotes source, '\n' ∉ piece) ∧
      ((∀ m ∈ expressions source, '\n' ∉ m.body) → report.LineByLine name) := by
  have hiff := options.lineByLine_report_iff source hname
  refine ⟨options.report source, validate_eq_ok source options,
    options.length_textLines_report source hname, hiff, fun hbodies => ?_⟩
  refine hiff.mpr fun piece hpiece hbreak => ?_
  obtain ⟨kind, -, hkind⟩ := List.mem_flatMap.mp hpiece
  obtain ⟨m, hm, hbody⟩ := Kind.exists_expression_of_mem_quotes hkind hbreak
  exact hbodies m hm hbody

/-- Lines of the template do not matter as long as they do not end inside an expression. -/
theorem validate_lineByLine_iff_paragraph :
    (∀ text ∈ some "page.html", '\n' ∉ text.toList) ∧
      ∃ report, validate "<p>\n\x7b\x7b a.b \x7d\x7d\n</p>".toList = .ok report ∧
        (textLines (report.renderText (some "page.html") false)).length = report.lineCount + 1 ∧
        report.LineByLine (some "page.html") := by
  have hname : ∀ text ∈ some "page.html", '\n' ∉ text.toList := by simp
  obtain ⟨report, hreport, -, -, hlines⟩ :=
    validate_lineByLine_iff "<p>\n\x7b\x7b a.b \x7d\x7d\n</p>".toList {} hname
  have hlayout := hlines (by decide +kernel)
  exact ⟨hname, report, hreport, hlayout.length_eq, hlayout⟩

/-- An expression that goes over two lines: there is a warning and a suggestion, which make eleven
lines, but the suggestion quotes the expression on two lines. -/
theorem validate_lineByLine_brokenExpression :
    (∀ text ∈ some "page.html", '\n' ∉ text.toList) ∧
      ∃ report, validate "\x7b\x7ba.\nb\x7d\x7d".toList = .ok report ∧
        report.lineCount = 11 ∧
        (textLines (report.renderText (some "page.html") false)).length = 11 + 1 + 1 ∧
        ¬ report.LineByLine (some "page.html") := by
  have hname : ∀ text ∈ some "page.html", '\n' ∉ text.toList := by simp
  have hcount : (Options.report {} "\x7b\x7ba.\nb\x7d\x7d".toList).lineCount = 11 := by
    decide +kernel
  have hquotes : Options.quotes {} "\x7b\x7ba.\nb\x7d\x7d".toList =
      ["\x7b\x7ba.\nb\x7d\x7d".toList] := by
    decide +kernel
  refine ⟨hname, _, validate_eq_ok _ _, hcount, ?_, ?_⟩
  · rw [Options.length_textLines_report _ _ hname, hcount, hquotes]
    decide +kernel
  · rw [Options.lineByLine_report_iff _ _ hname, hquotes]
    decide +kernel

end TemplateLint
