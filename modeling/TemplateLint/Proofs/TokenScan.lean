import TemplateLint.Proofs.TemplateGrammar
import TemplateLint.Proofs.Validity

/-!
# What the scans find in tokens

Tokens are self-delimiting: whatever follows a token, a scan either takes it or passes over the
whole of it. So each scan has one lemma for a token and the text behind it, and by induction
(`scan_textOf`) finds in the text of tokens just what the tokens say, wherever they stand.

* `blockOpeners_textOf`: the opening tags are those of the opening tokens.
* `closingTags_textOf`: the closing tags are those of the closing tokens.
* `blankExpressions_textOf`: no expression is blank.
* `balanced_braces_textOf`: the braces are balanced.
-/

namespace TemplateLint.Markup

open TemplateLint.Text

/-! ### Passing over text -/

namespace Pattern

variable {pattern : Pattern}

/-- Whatever the pattern matches begins with a mark. -/
def BeginsWith (pattern : Pattern) (mark : List Char) : Prop :=
  ∀ {text : List Char}, ¬ mark <+: text → pattern.split? text = none

theorem beginsWith_literal {mark : List Char} (hmark : mark ≠ []) :
    (Pattern.literal mark hmark).BeginsWith mark := by
  intro text h
  have hafter : after? mark text = none := by
    rw [after?, if_neg (mt List.isPrefixOf_iff_prefix.mp h)]
  simp [Pattern.literal, hafter]

theorem beginsWith_marked {mark : List Char} {inner : List Char → Option (List Char × List Char)}
    (hinner : ∀ {text piece rest}, inner text = some (piece, rest) → text = piece ++ rest)
    (hmark : mark ≠ []) : (Pattern.marked mark inner hinner hmark).BeginsWith mark := by
  intro text h
  have hafter : after? mark text = none := by
    rw [after?, if_neg (mt List.isPrefixOf_iff_prefix.mp h)]
  simp [Pattern.marked, hafter]

variable {mark : List Char} {x : Char}

/-- Where the mark does not begin the search goes on with the next character. -/
theorem find?_cons (hpattern : pattern.BeginsWith mark) (pos : Nat) {c : Char} {text : List Char}
    (h : ¬ mark <+: c :: text) : pattern.find? pos (c :: text) = pattern.find? (pos + 1) text := by
  rw [find?, hpattern h]

/-- Text without opening braces is passed over. -/
theorem find?_append (hpattern : pattern.BeginsWith ('{' :: mark)) (pos : Nat)
    {piece : List Char} (hpiece : '{' ∉ piece) (later : List Char) :
    pattern.find? pos (piece ++ later) = pattern.find? (pos + piece.length) later := by
  induction piece generalizing pos with
  | nil => rfl
  | cons c piece ih =>
    obtain ⟨hc, hpiece⟩ := not_or.mp (mt List.mem_cons.mpr hpiece)
    have hnot : ¬ '{' :: mark <+: c :: (piece ++ later) :=
      fun h => hc (List.cons_prefix_cons.mp h).1
    rw [List.cons_append, find?_cons hpattern pos hnot, ih (pos + 1) hpiece, List.length_cons,
      Nat.add_assoc, Nat.add_comm 1]

/-- Two braces that begin something else are passed over, and so is what stands in them. -/
theorem find?_braced (hpattern : pattern.BeginsWith ['{', '{', x]) (pos : Nat) {c : Char}
    {body : List Char} (hbrace : c ≠ '{') (hc : c ≠ x) (hbody : '{' ∉ body) (later : List Char) :
    pattern.find? pos (braced (c :: body) ++ later) =
      pattern.find? (pos + (braced (c :: body)).length) later := by
  have htext : braced (c :: body) = '{' :: '{' :: (c :: body ++ closingBraces) := rfl
  -- behind the first brace the mark wants another character, behind the second another brace
  have hfirst : ¬ ['{', '{', x] <+: '{' :: '{' :: (c :: body ++ closingBraces ++ later) := by
    simpa [List.cons_prefix_cons] using hc.symm
  have hsecond : ¬ ['{', '{', x] <+: '{' :: (c :: body ++ closingBraces ++ later) := by
    simp [List.cons_prefix_cons, hbrace.symm]
  have hrest : '{' ∉ c :: body ++ closingBraces := by
    simpa [hbody, closingBraces] using hbrace.symm
  rw [htext, List.cons_append, List.cons_append, find?_cons hpattern pos hfirst,
    find?_cons hpattern _ hsecond, find?_append hpattern _ hrest]
  congr 1
  simp only [List.length_cons]
  omega

end Pattern

/-! ### The characters of tokens -/

theorem not_mem_of_braceFree {text : List Char} (h : ∀ c ∈ text, isBrace c = false) {b : Char}
    (hb : isBrace b) : b ∉ text := by
  intro hmem
  rw [h b hmem] at hb
  exact absurd hb Bool.false_ne_true

private theorem isBrace_eq_false_of_isWord {c : Char} (h : isWord c) : isBrace c = false := by
  have hopen : c ≠ '{' := by
    rintro rfl
    simp at h
  have hclose : c ≠ '}' := by
    rintro rfl
    simp at h
  simp [isBrace, hopen, hclose]

private theorem BlockHead.braceFree_name (head : BlockHead) : ∀ c ∈ head.name, isBrace c = false :=
  fun c hc => isBrace_eq_false_of_isWord (head.isWord_name c hc)

private theorem BlockHead.braceFree_append (head : BlockHead) :
    ∀ c ∈ head.name ++ head.content, isBrace c = false := by
  intro c hc
  rcases List.mem_append.mp hc with hc | hc
  · exact head.braceFree_name c hc
  · exact head.braceFree c hc

private theorem ExpressionBody.exists_cons (e : ExpressionBody) :
    ∃ c rest, e.text = c :: rest ∧ c ≠ '{' ∧ c ≠ '#' ∧ c ≠ '/' ∧ '{' ∉ rest := by
  cases htext : e.text with
  | nil => exact absurd (by rw [htext]; rfl) e.not_blank
  | cons c rest =>
    have hbrace : '{' ∉ c :: rest := htext ▸ not_mem_of_braceFree e.braceFree rfl
    obtain ⟨hc, hrest⟩ := not_or.mp (mt List.mem_cons.mpr hbrace)
    have hhash := e.no_hash
    have hslash := e.no_slash
    rw [htext, List.head?_cons] at hhash hslash
    exact ⟨c, rest, rfl, Ne.symm hc, fun h => hhash (h ▸ rfl), fun h => hslash (h ▸ rfl), hrest⟩

section Passing

variable {pattern : Pattern} {x : Char}

private theorem find?_char (hpattern : pattern.BeginsWith ['{', '{', x]) (pos : Nat) {c : Char}
    (hc : isBrace c = false) (later : List Char) :
    pattern.find? pos ((Leaf.char c hc).text ++ later) =
      pattern.find? (pos + (Leaf.char c hc).text.length) later := by
  refine Pattern.find?_append hpattern pos ?_ later
  rw [Leaf.text, List.mem_singleton]
  rintro rfl
  exact absurd hc (by decide)

private theorem find?_output (hpattern : pattern.BeginsWith ['{', '{', x]) (hx : x = '#' ∨ x = '/')
    (pos : Nat) (e : ExpressionBody) (later : List Char) :
    pattern.find? pos (braced e.text ++ later) =
      pattern.find? (pos + (braced e.text).length) later := by
  obtain ⟨c, rest, htext, hbrace, hhash, hslash, hrest⟩ := e.exists_cons
  have hc : c ≠ x := by
    rcases hx with rfl | rfl
    · exact hhash
    · exact hslash
  rw [htext]
  exact Pattern.find?_braced hpattern pos hbrace hc hrest later

private theorem find?_rawOutput (hpattern : pattern.BeginsWith ['{', '{', x])
    (hx : x = '#' ∨ x = '/') (pos : Nat) (e : ExpressionBody) (later : List Char) :
    pattern.find? pos ((Leaf.rawOutput e).text ++ later) =
      pattern.find? (pos + (Leaf.rawOutput e).text.length) later := by
  have hfirst : ¬ ['{', '{', x] <+: '{' :: (braced e.text ++ (['}'] ++ later)) := by
    rcases hx with rfl | rfl <;> simp [braced, List.cons_prefix_cons]
  -- the first brace is passed over, and then there are an output and one brace more
  rw [Leaf.text, List.cons_append, List.cons_append, List.append_assoc,
    Pattern.find?_cons hpattern pos hfirst, find?_output hpattern hx,
    Pattern.find?_append hpattern _ (by decide)]
  congr 1
  simp only [List.length_cons, List.length_append]
  omega

end Passing

/-- Opening tags are looked for where two braces and a hash stand. -/
private theorem beginsWith_openTag : Head.openTag.pattern.BeginsWith ['{', '{', '#'] :=
  Pattern.beginsWith_marked append_of_splitName? (by decide)

/-- Closing tags are looked for where two braces and a slash stand. -/
private theorem beginsWith_closingTag : closingTag.BeginsWith ['{', '{', '/'] :=
  Pattern.beginsWith_marked (append_of_closedBy? append_of_splitName?) (by decide)

/-! ### Along the tokens -/

/-- What tokens give one after the other, each at the offset at which it stands. -/
def gather {α : Type} (give : Nat → Token → List α) : Nat → List Token → List α
  | _, [] => []
  | pos, token :: tokens => give pos token ++ gather give (pos + token.text.length) tokens

theorem gather_append {α : Type} (give : Nat → Token → List α) (pos : Nat)
    (tokens others : List Token) :
    gather give pos (tokens ++ others) =
      gather give pos tokens ++ gather give (pos + (textOf tokens).length) others := by
  induction tokens generalizing pos with
  | nil => rfl
  | cons token tokens ih =>
    rw [List.cons_append, gather, gather, ih, textOf_cons, List.length_append, List.append_assoc,
      Nat.add_assoc]

/-- **A scan finds in the text of tokens what the tokens give**, if it does so for one token and
goes on behind it. -/
theorem scan_textOf {α : Type} (scan : Nat → List Char → List α) {give : Nat → Token → List α}
    (hnil : ∀ pos, scan pos [] = [])
    (hstep : ∀ pos token later,
      scan pos (token.text ++ later) = give pos token ++ scan (pos + token.text.length) later)
    (pos : Nat) (tokens : List Token) : scan pos (textOf tokens) = gather give pos tokens := by
  induction tokens generalizing pos with
  | nil => exact hnil pos
  | cons token tokens ih => rw [textOf_cons, hstep, ih, gather]

/-! ### Opening tags -/

/-- One step of the scan for opening tags. -/
private theorem openingTagsFrom_eq (pos : Nat) (text : List Char) :
    openingTagsFrom pos text =
      match Head.openTag.pattern.find? pos text with
      | none => []
      | some o =>
        match splitFirst? closingBraces o.rest with
        | none => []
        | some (content, later) =>
          ⟨o.start, tagName o.matched, content⟩ ::
            openingTagsFrom (o.stop + content.length + closingBraces.length) later := by
  rw [openingTagsFrom]
  split
  · next h => rw [h]
  · next o h =>
    rw [h]
    split
    · next hclose => simp only [hclose]
    · next content later hclose => simp only [hclose]

private theorem splitFirst?_closingBraces {content : List Char} (hcontent : '}' ∉ content)
    (later : List Char) :
    splitFirst? closingBraces (content ++ (closingBraces ++ later)) = some (content, later) := by
  induction content with
  | nil =>
    have hafter : after? closingBraces ('}' :: '}' :: later) = some later :=
      after?_append closingBraces later
    rw [List.nil_append, closingBraces, List.cons_append, List.cons_append, splitFirst?,
      ← closingBraces, List.nil_append, hafter]
  | cons c content ih =>
    obtain ⟨hc, hcontent⟩ := not_or.mp (mt List.mem_cons.mpr hcontent)
    have hafter : after? closingBraces (c :: (content ++ (closingBraces ++ later))) = none := by
      simp [after?, closingBraces, List.isPrefixOf, hc]
    rw [List.cons_append, splitFirst?, hafter]
    simp [ih hcontent]

/-- An opening tag is found where it stands, whatever follows it. -/
private theorem openingTagsFrom_tag (pos : Nat) {name content : List Char} (hne : name ≠ [])
    (hword : ∀ c ∈ name, isWord c) (hborder : content.head?.any isWord = false)
    (hcontent : '}' ∉ content) (later : List Char) :
    openingTagsFrom pos (braced ('#' :: (name ++ content)) ++ later) =
      ⟨pos, name, content⟩ ::
        openingTagsFrom (pos + (braced ('#' :: (name ++ content))).length) later := by
  have hrest : (content ++ (closingBraces ++ later)).head?.any isWord = false := by
    cases content with
    | nil => rfl
    | cons c content => exact hborder
  have hsplit : Head.openTag.pattern.split? (braced ('#' :: (name ++ content)) ++ later) =
      some (['{', '{', '#'] ++ name, content ++ (closingBraces ++ later)) :=
    split?_openTag_eq_some_iff.mpr ⟨name, rfl, by simp [braced], hne, hword, hrest⟩
  rw [openingTagsFrom_eq, Pattern.find?_of_split? pos hsplit]
  have hstop : pos + (['{', '{', '#'] ++ name).length + content.length + closingBraces.length =
      pos + (braced ('#' :: (name ++ content))).length := by
    simp only [braced, List.length_append, List.length_cons, List.length_nil]
    omega
  simp only [splitFirst?_closingBraces hcontent, tagName_openTag hword, Occurrence.stop, hstop]

/-- The opening tag of a token that opens a block. -/
def Token.openers (pos : Nat) : Token → List OpeningTag
  | .opening head => [⟨pos, head.name, head.content⟩]
  | _ => []

theorem BlockHead.isSelfClosing_iff (head : BlockHead) (pos : Nat) {content : List Char}
    (hcontent : '}' ∉ content) :
    OpeningTag.isSelfClosing ⟨pos, head.name, content⟩ ↔
      (head.name ++ content).getLast? = some '/' :=
  OpeningTag.isSelfClosing_iff head.isWord_name
    (occursIn_closingBraces_append hcontent ['}'] ▸ rfl)

private theorem PairedHead.isSelfClosing_eq_false (head : PairedHead) (pos : Nat) :
    OpeningTag.isSelfClosing ⟨pos, head.name, head.content⟩ = false := by
  have hcontent : '}' ∉ head.content := not_mem_of_braceFree head.braceFree rfl
  rw [← Bool.not_eq_true, head.isSelfClosing_iff pos hcontent, List.getLast?_append]
  have hslash := head.no_slash
  cases hlast : head.content.getLast? with
  | none =>
    -- the last character is one of the name
    intro hname
    have hmem := List.mem_of_getLast? hname
    exact absurd (head.isWord_name _ hmem) (by simp)
  | some c =>
    rw [hlast] at hslash
    exact hslash

private theorem BlockHead.isSelfClosing_eq_true (head : BlockHead) (pos : Nat) :
    OpeningTag.isSelfClosing ⟨pos, head.name, head.content ++ ['/']⟩ = true := by
  have hcontent : '}' ∉ head.content ++ ['/'] := by
    simpa using not_mem_of_braceFree head.braceFree rfl
  rw [head.isSelfClosing_iff pos hcontent]
  simp

/-- The opening tags that want a closing tag, in a text that begins at offset `pos`. -/
private def blockOpenersFrom (pos : Nat) (text : List Char) : List OpeningTag :=
  (openingTagsFrom pos text).filter fun tag => !tag.isSelfClosing

private theorem blockOpenersFrom_congr {pos pos' : Nat} {text text' : List Char}
    (h : Head.openTag.pattern.find? pos text = Head.openTag.pattern.find? pos' text') :
    blockOpenersFrom pos text = blockOpenersFrom pos' text' := by
  rw [blockOpenersFrom, blockOpenersFrom, openingTagsFrom_eq, openingTagsFrom_eq pos', h]

private theorem blockOpenersFrom_token (pos : Nat) (token : Token) (later : List Char) :
    blockOpenersFrom pos (token.text ++ later) =
      token.openers pos ++ blockOpenersFrom (pos + token.text.length) later := by
  cases token with
  | leaf item =>
    cases item with
    | char c hc => exact blockOpenersFrom_congr (find?_char beginsWith_openTag pos hc later)
    | output e =>
      exact blockOpenersFrom_congr (find?_output beginsWith_openTag (.inl rfl) pos e later)
    | rawOutput e =>
      exact blockOpenersFrom_congr (find?_rawOutput beginsWith_openTag (.inl rfl) pos e later)
    | selfClosing head =>
      have hcontent : '}' ∉ head.content ++ ['/'] := by
        simpa using not_mem_of_braceFree head.braceFree rfl
      have hborder : (head.content ++ ['/']).head?.any isWord = false := by
        cases hhead : head.content with
        | nil => rfl
        | cons c content => simpa [hhead] using head.border
      rw [Token.text, Leaf.text, blockOpenersFrom,
        openingTagsFrom_tag pos head.name_ne_nil head.isWord_name hborder hcontent,
        List.filter_cons_of_neg (by simp [head.isSelfClosing_eq_true])]
      rfl
  | opening head =>
    have hcontent : '}' ∉ head.content := not_mem_of_braceFree head.braceFree rfl
    rw [Token.text, PairedHead.openingText, blockOpenersFrom,
      openingTagsFrom_tag pos head.name_ne_nil head.isWord_name head.border hcontent,
      List.filter_cons_of_pos (by simp [head.isSelfClosing_eq_false])]
    rfl
  | closing head =>
    have hname : '{' ∉ head.name := not_mem_of_braceFree head.braceFree_name rfl
    exact blockOpenersFrom_congr
      (Pattern.find?_braced beginsWith_openTag pos (by decide) (by decide) hname later)

theorem blockOpeners_textOf (tokens : List Token) :
    blockOpeners (textOf tokens) = gather Token.openers 0 tokens := by
  have hnil : ∀ pos, blockOpenersFrom pos [] = [] := by
    intro pos
    rw [blockOpenersFrom, openingTagsFrom_eq]
    rfl
  exact scan_textOf blockOpenersFrom hnil blockOpenersFrom_token 0 tokens

/-! ### Closing tags -/

private theorem Pattern.findAll_eq (pattern : Pattern) (pos : Nat) (text : List Char) :
    pattern.findAll pos text =
      match pattern.find? pos text with
      | none => []
      | some o => o :: pattern.findAll o.stop o.rest := by
  rw [Pattern.findAll]
  split
  · next h => rw [h]
  · next o h => rw [h]

/-- The closing tags in a text that begins at offset `pos`. -/
private def closingTagsFrom (pos : Nat) (text : List Char) : List ClosingTag :=
  (closingTag.findAll pos text).map fun o => ⟨o.start, tagName o.matched⟩

private theorem closingTagsFrom_congr {pos pos' : Nat} {text text' : List Char}
    (h : closingTag.find? pos text = closingTag.find? pos' text') :
    closingTagsFrom pos text = closingTagsFrom pos' text' := by
  rw [closingTagsFrom, closingTagsFrom, Pattern.findAll_eq, Pattern.findAll_eq closingTag pos', h]

/-- The closing tag of a token that closes a block. -/
def Token.closers (pos : Nat) : Token → List ClosingTag
  | .closing head => [⟨pos, head.name⟩]
  | _ => []

/-- A closing tag is found where it stands, whatever follows it. -/
private theorem closingTagsFrom_tag (pos : Nat) (head : PairedHead) (later : List Char) :
    closingTagsFrom pos (head.closingText ++ later) =
      ⟨pos, head.name⟩ :: closingTagsFrom (pos + head.closingText.length) later := by
  have hsplit : closingTag.split? (head.closingText ++ later) =
      some (head.closingText, later) :=
    split?_closingTag_eq_some_iff.mpr ⟨head.name, rfl, by simp [PairedHead.closingText, braced],
      head.name_ne_nil, head.isWord_name⟩
  have hborder : closingBraces.head?.any isWord = false := rfl
  have hname : tagName head.closingText = head.name :=
    tagName_append ['{', '{', '/'] rfl head.isWord_name hborder
  rw [closingTagsFrom, Pattern.findAll_eq, Pattern.find?_of_split? pos hsplit]
  simp only [List.map_cons, hname]
  rfl

private theorem closingTagsFrom_token (pos : Nat) (token : Token) (later : List Char) :
    closingTagsFrom pos (token.text ++ later) =
      token.closers pos ++ closingTagsFrom (pos + token.text.length) later := by
  cases token with
  | leaf item =>
    cases item with
    | char c hc => exact closingTagsFrom_congr (find?_char beginsWith_closingTag pos hc later)
    | output e =>
      exact closingTagsFrom_congr (find?_output beginsWith_closingTag (.inr rfl) pos e later)
    | rawOutput e =>
      exact closingTagsFrom_congr (find?_rawOutput beginsWith_closingTag (.inr rfl) pos e later)
    | selfClosing head =>
      have hbody : '{' ∉ head.name ++ (head.content ++ ['/']) := by
        simpa using not_mem_of_braceFree head.braceFree_append rfl
      exact closingTagsFrom_congr
        (Pattern.find?_braced beginsWith_closingTag pos (by decide) (by decide) hbody later)
  | opening head =>
    have hbody : '{' ∉ head.name ++ head.content := not_mem_of_braceFree head.braceFree_append rfl
    exact closingTagsFrom_congr
      (Pattern.find?_braced beginsWith_closingTag pos (by decide) (by decide) hbody later)
  | closing head => exact closingTagsFrom_tag pos head later

theorem closingTags_textOf (tokens : List Token) :
    closingTags (textOf tokens) = gather Token.closers 0 tokens := by
  have hnil : ∀ pos, closingTagsFrom pos [] = [] := by
    intro pos
    rw [closingTagsFrom, Pattern.findAll_eq]
    rfl
  exact scan_textOf closingTagsFrom hnil closingTagsFrom_token 0 tokens

/-! ### Expressions -/

/-- A marker is found where it stands, whatever follows it. -/
theorem MarkerForm.markersFrom_of_split? (form : MarkerForm) (pos : Nat)
    {text head body later : List Char}
    (hsplit : form.head.pattern.split? text = some (head, body ++ '}' :: later))
    (hbody : '}' ∉ body) (haccepts : form.accepts body ('}' :: later)) :
    form.markersFrom pos text =
      ⟨pos, head, body, form.close⟩ ::
        form.markersFrom (Marker.stop ⟨pos, head, body, form.close⟩)
          (('}' :: later).drop form.close.length) := by
  have hchars : ∀ c ∈ body, (c != '}') = true := by
    intro c hc
    rw [bne_iff_ne]
    rintro rfl
    exact hbody hc
  have htake : (body ++ '}' :: later).takeWhile (· != '}') = body :=
    takeWhile_append_of_head? hchars rfl
  have hdrop : (body ++ '}' :: later).dropWhile (· != '}') = '}' :: later :=
    dropWhile_append_of_head? hchars rfl
  rw [markersFrom_eq, Pattern.find?_of_split? pos hsplit]
  simp only [htake, hdrop]
  rw [if_pos haccepts]

/-- The blank expressions in a text that begins at offset `pos`. -/
private def blankExpressionsFrom (pos : Nat) (text : List Char) : List Marker :=
  (MarkerForm.markersFrom ⟨.expression, closingBraces, false⟩ pos text).filter fun m =>
    (trim m.body).isEmpty

private theorem beginsWith_expression : Head.expression.pattern.BeginsWith ['{', '{'] :=
  Pattern.beginsWith_literal (by decide)

private theorem blankExpressionsFrom_congr {pos pos' : Nat} {text text' : List Char}
    (h : Head.expression.pattern.find? pos text = Head.expression.pattern.find? pos' text') :
    blankExpressionsFrom pos text = blankExpressionsFrom pos' text' := by
  rw [blankExpressionsFrom, blankExpressionsFrom, MarkerForm.markersFrom_eq,
    MarkerForm.markersFrom_eq _ pos', h]

/-- An expression that is not blank is found where it stands and left out. -/
private theorem blankExpressionsFrom_braced (pos : Nat) {body : List Char} (hbody : '}' ∉ body)
    (hblank : ∃ c ∈ body, isBlank c = false) (later : List Char) :
    blankExpressionsFrom pos (braced body ++ later) =
      blankExpressionsFrom (pos + (braced body).length) later := by
  have hsplit : Head.expression.pattern.split? (braced body ++ later) =
      some (['{', '{'], body ++ ('}' :: '}' :: later)) := by
    simp [Head.pattern, Pattern.literal, after?, braced, closingBraces]
  have hkept : (trim body).isEmpty = false := by
    obtain ⟨c, hc, hcblank⟩ := hblank
    rw [List.isEmpty_eq_false_iff, ne_eq, trim_eq_nil_iff]
    intro hall
    rw [hall c hc] at hcblank
    exact absurd hcblank (by decide)
  rw [blankExpressionsFrom, MarkerForm.markersFrom_of_split? _ pos hsplit hbody
    (by simp [MarkerForm.accepts, closingBraces]), List.filter_cons_of_neg (by simp [hkept])]
  rfl

private theorem blankExpressionsFrom_token (pos : Nat) (token : Token) (later : List Char) :
    blankExpressionsFrom pos (token.text ++ later) =
      [] ++ blankExpressionsFrom (pos + token.text.length) later := by
  rw [List.nil_append]
  cases token with
  | leaf item =>
    cases item with
    | char c hc =>
      refine blankExpressionsFrom_congr (Pattern.find?_append beginsWith_expression pos ?_ later)
      rw [Token.text, Leaf.text, List.mem_singleton]
      rintro rfl
      exact absurd hc (by decide)
    | output e =>
      have hblank : ∃ c ∈ e.text, isBlank c = false := by
        have h := e.not_blank
        rw [ne_eq, trim_eq_nil_iff] at h
        simpa using h
      exact blankExpressionsFrom_braced pos (not_mem_of_braceFree e.braceFree rfl) hblank later
    | rawOutput e =>
      -- the expression holds the third brace, and a closing brace is left behind it
      have htext : (Leaf.rawOutput e).text ++ later =
          braced ('{' :: e.text) ++ (['}'] ++ later) := by
        simp [Leaf.text, braced, closingBraces]
      have hlength : (Leaf.rawOutput e).text.length =
          (braced ('{' :: e.text)).length + ['}'].length := by
        simp [Leaf.text, braced, closingBraces]
      have hbody : '}' ∉ '{' :: e.text := by
        simpa using not_mem_of_braceFree e.braceFree rfl
      rw [Token.text, htext, blankExpressionsFrom_braced pos hbody ⟨'{', by simp, rfl⟩, hlength,
        ← Nat.add_assoc]
      exact blankExpressionsFrom_congr
        (Pattern.find?_append beginsWith_expression _ (by decide) later)
    | selfClosing head =>
      have hbody : '}' ∉ '#' :: (head.name ++ (head.content ++ ['/'])) := by
        simpa using not_mem_of_braceFree head.braceFree_append rfl
      exact blankExpressionsFrom_braced pos hbody ⟨'#', by simp, rfl⟩ later
  | opening head =>
    have hbody : '}' ∉ '#' :: (head.name ++ head.content) := by
      simpa using not_mem_of_braceFree head.braceFree_append rfl
    exact blankExpressionsFrom_braced pos hbody ⟨'#', by simp, rfl⟩ later
  | closing head =>
    have hbody : '}' ∉ '/' :: head.name := by
      simpa using not_mem_of_braceFree head.braceFree_name rfl
    exact blankExpressionsFrom_braced pos hbody ⟨'/', by simp, rfl⟩ later

private theorem gather_nothing {α : Type} (pos : Nat) (tokens : List Token) :
    gather (fun _ _ => ([] : List α)) pos tokens = [] := by
  induction tokens generalizing pos with
  | nil => rfl
  | cons token tokens ih => rw [gather, ih, List.append_nil]

theorem blankExpressions_textOf (tokens : List Token) : blankExpressions (textOf tokens) = [] := by
  have hnil : ∀ pos, blankExpressionsFrom pos [] = [] := by
    intro pos
    rw [blankExpressionsFrom, MarkerForm.markersFrom_eq]
    rfl
  have hscan := scan_textOf blankExpressionsFrom hnil blankExpressionsFrom_token 0 tokens
  rw [gather_nothing] at hscan
  exact hscan

/-! ### Braces -/

private theorem braces_of_braceFree {text : List Char} (h : ∀ c ∈ text, isBrace c = false) :
    braces text = [] := by
  rw [braces, List.filter_eq_nil_iff]
  intro c hc
  rw [h c hc]
  exact Bool.false_ne_true

private theorem braces_append (text other : List Char) :
    braces (text ++ other) = braces text ++ braces other :=
  List.filter_append ..

private theorem balanced_braces_braced {body : List Char} (h : ∀ c ∈ body, isBrace c = false) :
    Balanced (braces (braced body)) := by
  have hbraces : Balanced ['{', '{', '}', '}'] := .pair (.pair .nil .nil) .nil
  rw [braced, braces_append, braces_append, braces_of_braceFree h]
  exact hbraces

private theorem Token.balanced_braces (token : Token) : Balanced (braces token.text) := by
  cases token with
  | leaf item =>
    cases item with
    | char c hc =>
      rw [Token.text, braces_of_braceFree (by simpa [Leaf.text] using hc)]
      exact .nil
    | output e => exact balanced_braces_braced e.braceFree
    | rawOutput e =>
      have hbraces : braces (Leaf.rawOutput e).text = '{' :: braces (braced e.text) ++ ['}'] := by
        simp [Leaf.text, braces, isBrace]
      rw [Token.text, hbraces]
      exact .pair (balanced_braces_braced e.braceFree) .nil
    | selfClosing head =>
      refine balanced_braces_braced (List.forall_mem_cons.mpr ⟨rfl, ?_⟩)
      rw [← List.append_assoc]
      exact List.forall_mem_append.mpr ⟨head.braceFree_append, by simp [isBrace]⟩
  | opening head =>
    exact balanced_braces_braced (List.forall_mem_cons.mpr ⟨rfl, head.braceFree_append⟩)
  | closing head =>
    exact balanced_braces_braced (List.forall_mem_cons.mpr ⟨rfl, head.braceFree_name⟩)

theorem balanced_braces_textOf (tokens : List Token) : Balanced (braces (textOf tokens)) := by
  induction tokens with
  | nil => exact .nil
  | cons token tokens ih =>
    rw [textOf_cons, braces_append]
    exact token.balanced_braces.append ih

end TemplateLint.Markup
