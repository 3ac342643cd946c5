import TemplateLint.Proofs.TokenScan

/-!
# Linting well-formed templates

Two promises about the templates of the grammar, at every depth of nesting and with every options.

* `validate_template`: no error is found in a well-formed template.
* `validate_block_unpaired`: if one tag of a block is deleted and no other block has its name, one
  error is found, and it is at the tag that is left.

Both rest on `errors_textOf`: in the text of tokens, balanced or not, only the pairing of tags can
be wrong. Which tags are paired depends on the names of the other tokens alone, and around a block
these open and close the same names (`closingNames_perm_of_block`).
-/

namespace TemplateLint

open TemplateLint.Markup TemplateLint.Text

namespace Markup

/-! ### Tags and names of tokens -/

/-- The names of what tokens give are the names of the tokens. -/
private theorem map_gather {α β : Type} {give : Nat → Token → List α} {name : α → β}
    {name? : Token → Option β}
    (h : ∀ pos token, (give pos token).map name = (name? token).toList) (pos : Nat)
    (tokens : List Token) : (gather give pos tokens).map name = tokens.filterMap name? := by
  induction tokens generalizing pos with
  | nil => rfl
  | cons token tokens ih =>
    rw [gather, List.map_append, h, ih, List.filterMap_cons]
    cases name? token <;> rfl

private theorem map_name_openers (pos : Nat) (tokens : List Token) :
    (gather Token.openers pos tokens).map OpeningTag.name = openingNames tokens :=
  map_gather (fun _ token => by cases token <;> rfl) pos tokens

private theorem map_name_closers (pos : Nat) (tokens : List Token) :
    (gather Token.closers pos tokens).map ClosingTag.name = closingNames tokens :=
  map_gather (fun _ token => by cases token <;> rfl) pos tokens

private theorem unclosedTags_textOf (tokens : List Token) :
    unclosedTags (textOf tokens) =
      (gather Token.openers 0 tokens).filter fun tag =>
        !(closingNames tokens).contains tag.name := by
  simp only [unclosedTags, blockOpeners_textOf, closingTags_textOf, map_name_closers]

private theorem unopenedTags_textOf (tokens : List Token) :
    unopenedTags (textOf tokens) =
      (gather Token.closers 0 tokens).filter fun tag =>
        !(openingNames tokens).contains tag.name := by
  simp only [unopenedTags, blockOpeners_textOf, closingTags_textOf, map_name_openers]

/-- Tags whose names all have a counterpart are not unpaired. -/
private theorem filter_unpaired_eq_nil {α : Type} {tags : List α} {name : α → List Char}
    {names : List (List Char)} (h : tags.map name ⊆ names) :
    tags.filter (fun tag => !names.contains (name tag)) = [] := by
  rw [List.filter_eq_nil_iff]
  intro tag htag
  have hname : name tag ∈ names := h (List.mem_map_of_mem htag)
  simp [hname]

/-- Of tags of which one only has no counterpart that one is unpaired. -/
private theorem filter_unpaired_eq_singleton {α : Type} {before after : List α} {tag : α}
    {name : α → List Char} {names : List (List Char)} (hbefore : before.map name ⊆ names)
    (htag : name tag ∉ names) (hafter : after.map name ⊆ names) :
    (before ++ tag :: after).filter (fun tag => !names.contains (name tag)) = [tag] := by
  rw [List.filter_append, filter_unpaired_eq_nil hbefore, List.nil_append,
    List.filter_cons_of_pos (by simpa using htag), filter_unpaired_eq_nil hafter]

private theorem unclosedTags_textOf_eq_nil {tokens : List Token}
    (h : openingNames tokens ⊆ closingNames tokens) : unclosedTags (textOf tokens) = [] := by
  rw [← map_name_openers 0] at h
  rw [unclosedTags_textOf, filter_unpaired_eq_nil h]

private theorem unopenedTags_textOf_eq_nil {tokens : List Token}
    (h : closingNames tokens ⊆ openingNames tokens) : unopenedTags (textOf tokens) = [] := by
  rw [← map_name_closers 0] at h
  rw [unopenedTags_textOf, filter_unpaired_eq_nil h]

end Markup

/-! ### Errors in the text of tokens -/

/-- **Only the pairing of tags can be wrong** in the text of tokens. -/
theorem errors_textOf (options : Options) (tokens : List Token) :
    (options.report (textOf tokens)).errors =
      if Kind.unmatchedTag ∈ options.disabled then []
      else (unclosedTags (textOf tokens)).map OpeningTag.unclosed ++
        (unopenedTags (textOf tokens)).map ClosingTag.unopened := by
  have hblank : Kind.emptyExpression.findings options (textOf tokens) = [] :=
    Kind.findings_emptyExpression_eq_nil_iff.mpr (blankExpressions_textOf tokens)
  have hbraces : Kind.unmatchedBrackets.findings options (textOf tokens) = [] :=
    Kind.findings_unmatchedBrackets_eq_nil_iff.mpr (balanced_braces_textOf tokens)
  rw [Options.errors_report, flatMap_filter, Kind.errors]
  simp only [List.flatMap_cons, List.flatMap_nil, hblank, hbraces, ite_self, List.append_nil]
  by_cases h : Kind.unmatchedTag ∈ options.disabled
  · rw [if_neg (not_not.mpr h), if_pos h]
  · rw [if_pos h, if_neg h]
    rfl

/-- **No false errors**: a well-formed template is valid, whatever the options. -/
theorem validate_template (t : Template) (options : Options) :
    ∃ report, validate t.text options = .ok report ∧ report.errors = [] ∧ report.isValid := by
  have hopen : openingNames t.tokens ⊆ closingNames t.tokens := by
    rw [t.openingNames_tokens]
    exact t.closingNames_tokens.symm.subset
  have hclose : closingNames t.tokens ⊆ openingNames t.tokens := by
    rw [t.openingNames_tokens]
    exact t.closingNames_tokens.subset
  have herrors : (options.report t.text).errors = [] := by
    rw [t.text_eq, errors_textOf, unclosedTags_textOf_eq_nil hopen,
      unopenedTags_textOf_eq_nil hclose]
    exact ite_self _
  exact ⟨_, validate_eq_ok t.text options, herrors, Report.isValid_iff.mpr herrors⟩

/-! ### A block without one of its tags -/

namespace Markup

/-- The template without the closing tag of the block. -/
def BlockSite.withoutClosing (site : BlockSite) : List Char :=
  site.before ++ site.head.openingText ++ site.inner ++ site.after

/-- The template without the opening tag of the block. -/
def BlockSite.withoutOpening (site : BlockSite) : List Char :=
  site.before ++ site.inner ++ site.head.closingText ++ site.after

section Site

variable {t : Template} {head : PairedHead} {before inner after : List Token}

private theorem perm_of_block
    (htokens : t.tokens = before ++ .opening head :: (inner ++ .closing head :: after)) :
    t.tokens.Perm (.opening head :: .closing head :: (before ++ inner ++ after)) := by
  rw [htokens]
  refine List.perm_middle.trans (.cons _ ?_)
  rw [← List.append_assoc]
  exact List.perm_middle

/-- The names that a template opens are that of a block and those around it. -/
private theorem openingNames_of_block
    (htokens : t.tokens = before ++ .opening head :: (inner ++ .closing head :: after)) :
    t.blockNames.Perm (head.name :: openingNames (before ++ inner ++ after)) := by
  -- of the two tags of the block only the first has a name here
  rw [← t.openingNames_tokens]
  exact (perm_of_block htokens).filterMap Token.openingName?

/-- Around a block the tags close the names that they open. -/
theorem closingNames_perm_of_block
    (htokens : t.tokens = before ++ .opening head :: (inner ++ .closing head :: after)) :
    (closingNames (before ++ inner ++ after)).Perm (openingNames (before ++ inner ++ after)) := by
  have hclosing : (closingNames t.tokens).Perm
      (head.name :: closingNames (before ++ inner ++ after)) :=
    (perm_of_block htokens).filterMap Token.closingName?
  have hnames := hclosing.symm.trans t.closingNames_tokens
  exact (hnames.trans (openingNames_of_block htokens)).cons_inv

/-- A name that one block only has is not among the names around that block. -/
private theorem not_mem_openingNames_of_block
    (htokens : t.tokens = before ++ .opening head :: (inner ++ .closing head :: after))
    (hunique : t.blockNames.count head.name = 1) :
    head.name ∉ openingNames (before ++ inner ++ after) := by
  rw [(openingNames_of_block htokens).count_eq, List.count_cons_self] at hunique
  exact List.count_eq_zero.mp (by omega)

end Site

section LeftTag

variable {options : Options} {head : PairedHead} {front back : List Token}

/-- A block opened among tags that are paired, and not closed, is the one thing wrong. -/
private theorem errors_of_opening (henabled : Kind.unmatchedTag ∉ options.disabled)
    (hperm : (closingNames (front ++ back)).Perm (openingNames (front ++ back)))
    (hname : head.name ∉ openingNames (front ++ back)) :
    (options.report (textOf (front ++ .opening head :: back))).errors =
      [OpeningTag.unclosed ⟨(textOf front).length, head.name, head.content⟩] := by
  have hclosing : closingNames (front ++ .opening head :: back) = closingNames (front ++ back) := by
    simp [closingNames, Token.closingName?, List.filterMap_cons]
  have hunclosed : unclosedTags (textOf (front ++ .opening head :: back)) =
      [⟨(textOf front).length, head.name, head.content⟩] := by
    rw [unclosedTags_textOf, hclosing, gather_append, Nat.zero_add, gather, Token.openers,
      List.singleton_append]
    -- the names before and behind are opened elsewhere and therefore closed
    refine filter_unpaired_eq_singleton ?_ (fun hmem => hname (hperm.subset hmem)) ?_
    · rw [map_name_openers]
      exact List.Subset.trans ((List.sublist_append_left front back).filterMap _).subset
        hperm.symm.subset
    · rw [map_name_openers]
      exact List.Subset.trans ((List.sublist_append_right front back).filterMap _).subset
        hperm.symm.subset
  have hunopened : unopenedTags (textOf (front ++ .opening head :: back)) = [] := by
    have hmore : (front ++ back).Sublist (front ++ .opening head :: back) :=
      (List.Sublist.refl front).append (List.sublist_cons_self _ back)
    refine unopenedTags_textOf_eq_nil ?_
    rw [hclosing]
    exact List.Subset.trans hperm.subset (hmore.filterMap _).subset
  rw [errors_textOf, if_neg henabled, hunclosed, hunopened]
  rfl

/-- A block closed among tags that are paired, and not opened, is the one thing wrong. -/
private theorem errors_of_closing (henabled : Kind.unmatchedTag ∉ options.disabled)
    (hperm : (closingNames (front ++ back)).Perm (openingNames (front ++ back)))
    (hname : head.name ∉ openingNames (front ++ back)) :
    (options.report (textOf (front ++ .closing head :: back))).errors =
      [ClosingTag.unopened ⟨(textOf front).length, head.name⟩] := by
  have hopening : openingNames (front ++ .closing head :: back) = openingNames (front ++ back) := by
    simp [openingNames, Token.openingName?, List.filterMap_cons]
  have hunopened : unopenedTags (textOf (front ++ .closing head :: back)) =
      [⟨(textOf front).length, head.name⟩] := by
    rw [unopenedTags_textOf, hopening, gather_append, Nat.zero_add, gather, Token.closers,
      List.singleton_append]
    refine filter_unpaired_eq_singleton ?_ hname ?_
    · rw [map_name_closers]
      exact List.Subset.trans ((List.sublist_append_left front back).filterMap _).subset
        hperm.subset
    · rw [map_name_closers]
      exact List.Subset.trans ((List.sublist_append_right front back).filterMap _).subset
        hperm.subset
  have hunclosed : unclosedTags (textOf (front ++ .closing head :: back)) = [] := by
    have hmore : (front ++ back).Sublist (front ++ .closing head :: back) :=
      (List.Sublist.refl front).append (List.sublist_cons_self _ back)
    refine unclosedTags_textOf_eq_nil ?_
    rw [hopening]
    exact List.Subset.trans hperm.symm.subset (hmore.filterMap _).subset
  rw [errors_textOf, if_neg henabled, hunclosed, hunopened]
  rfl

end LeftTag

end Markup

/-- **A deleted tag is found**: in a well-formed template, take a block whose name no other block
has. Without its closing tag there is one error, an unmatched tag at its opening tag, and the
message names the block and the offset at which it opens; without its opening tag there is one
error, an unmatched tag at its closing tag. -/
theorem validate_block_unpaired {t : Template} {site : BlockSite} (hsite : site ∈ t.blocks)
    (hunique : t.blockNames.count site.head.name = 1) (options : Options)
    (henabled : Kind.unmatchedTag ∉ options.disabled) :
    t.text = site.before ++ site.head.openingText ++ site.inner ++ site.head.closingText ++
        site.after ∧
      (∃ report d, validate site.withoutClosing options = .ok report ∧ report.errors = [d] ∧
        d.code = "unmatched_tag" ∧
        d.span = some (Span.ofLength site.before.length site.head.openingText.length) ∧
        d.message = "Unclosed tag \"\x7b\x7b#" ++ String.ofList site.head.name ++
          "\x7d\x7d\" at position " ++ toString site.before.length) ∧
      ∃ report d, validate site.withoutOpening options = .ok report ∧ report.errors = [d] ∧
        d.code = "unmatched_tag" ∧
        d.span = some (Span.ofLength (site.before.length + site.inner.length)
          site.head.closingText.length) := by
  obtain ⟨before, inner, after, htokens, hbefore, hinner, hafter⟩ :=
    Template.exists_tokens_of_mem_blocks hsite
  -- each of the two texts is the text of the tokens without one of them
  have hperm := closingNames_perm_of_block htokens
  have hname := not_mem_openingNames_of_block htokens hunique
  have hopening : OpeningTag.text ⟨site.before.length, site.head.name, site.head.content⟩ =
      site.head.openingText := by
    simp [OpeningTag.text, PairedHead.openingText, braced]
  refine ⟨?_,
    ⟨_, OpeningTag.unclosed ⟨site.before.length, site.head.name, site.head.content⟩,
      validate_eq_ok _ options, ?_, rfl, ?_, rfl⟩,
    ⟨_, ClosingTag.unopened ⟨site.before.length + site.inner.length, site.head.name⟩,
      validate_eq_ok _ options, ?_, rfl, rfl⟩⟩
  · rw [t.text_eq, htokens, hbefore, hinner, hafter]
    simp [Token.text]
  · have htext : site.withoutClosing =
        textOf (before ++ .opening site.head :: (inner ++ after)) := by
      simp [BlockSite.withoutClosing, hbefore, hinner, hafter, Token.text]
    rw [List.append_assoc] at hperm hname
    rw [htext, errors_of_opening henabled hperm hname, hbefore]
  · rw [← hopening]
    rfl
  · have htext : site.withoutOpening = textOf (before ++ inner ++ .closing site.head :: after) := by
      simp [BlockSite.withoutOpening, hbefore, hinner, hafter, Token.text]
    rw [htext, errors_of_closing henabled hperm hname, textOf_append, List.length_append, ← hbefore,
      ← hinner]

/-- A condition inside a loop, left open. -/
theorem validate_block_unpaired_nested :
    ∃ (t : Template) (site : BlockSite), site ∈ t.blocks ∧
      t.blockNames.count site.head.name = 1 ∧
      t.text = ("\x7b\x7b#for p in q\x7d\x7d\x7b\x7b#if p\x7d\x7d\x7b\x7b\x7bp\x7d\x7d\x7d" ++
        "\x7b\x7b/if\x7d\x7d\x7b\x7b/for\x7d\x7d").toList ∧
      ∃ report d, validate ("\x7b\x7b#for p in q\x7d\x7d\x7b\x7b#if p\x7d\x7d" ++
          "\x7b\x7b\x7bp\x7d\x7d\x7d\x7b\x7b/for\x7d\x7d").toList = .ok report ∧
        report.errors = [d] ∧ d.code = "unmatched_tag" ∧ d.span = some (Span.ofLength 15 9) ∧
        d.message = "Unclosed tag \"\x7b\x7b#if\x7d\x7d\" at position 15" := by
  let loop : PairedHead :=
    ⟨⟨"for".toList, " p in q".toList, by decide, List.all_eq_true.mp rfl, by simp [isBrace],
      rfl⟩, by decide⟩
  let condition : PairedHead :=
    ⟨⟨"if".toList, " p".toList, by decide, List.all_eq_true.mp rfl, by simp [isBrace], rfl⟩,
      by decide⟩
  let output : ExpressionBody := ⟨"p".toList, by simp [isBrace], by decide, by decide, by decide⟩
  let t : Template :=
    .block loop (.block condition (.leaf (.rawOutput output) .empty) .empty) .empty
  have hsite : ⟨loop.openingText, condition, (Leaf.rawOutput output).text, loop.closingText⟩ ∈
      t.blocks := .tail _ (.head _)
  have hunique : t.blockNames.count condition.name = 1 := by decide
  obtain ⟨htext, ⟨report, d, hvalid, herrors, hcode, hspan, hmessage⟩, -⟩ :=
    validate_block_unpaired hsite hunique {} (by decide)
  have hwording : "Unclosed tag \"\x7b\x7b#" ++ String.ofList "if".toList ++
      "\x7d\x7d\" at position " ++ toString 15 =
        "Unclosed tag \"\x7b\x7b#if\x7d\x7d\" at position 15" := by decide +kernel
  exact ⟨t, _, hsite, hunique, htext, report, d, hvalid, herrors, hcode, hspan,
    hmessage.trans hwording⟩

end TemplateLint
