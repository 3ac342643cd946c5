import TemplateLint.Proofs.BraceBalance
import TemplateLint.Proofs.TagScan

/-!
# Well-formed templates

`Template` is the grammar of well-formed templates: plain characters, outputs in two or three
braces and self-closing tags, one after the other, and blocks, which hold a template between their
opening and their closing tag. The parts carry what the grammar asks of them, so a value of this
type is a well-formed template and `Template.text` its source text.

Scans know nothing of nesting. What they see is `Template.tokens`: the tags and leaves from left to
right (`Template.text_eq`). A list of tokens need not be balanced, which is why the same lemmas
serve a template from which a tag was deleted.

`Template.blocks` lists the blocks with the text around and inside each, in the order in which they
open. Opening tokens come in that order too (`Template.openingNames_tokens`), closing ones in some
order (`Template.closingNames_tokens`).
-/

namespace TemplateLint.Markup

open TemplateLint.Text

/-! ### The parts of a template -/

/-- What stands between the braces of an output. -/
structure ExpressionBody where
  text : List Char
  /-- It holds no brace. -/
  braceFree : ∀ c ∈ text, isBrace c = false
  /-- It is not blank. -/
  not_blank : trim text ≠ []
  /-- It does not look like an opening tag. -/
  no_hash : text.head? ≠ some '#'
  /-- It does not look like a closing tag. -/
  no_slash : text.head? ≠ some '/'

/-- The name of a block and what follows the name in its tag. -/
structure BlockHead where
  name : List Char
  content : List Char
  name_ne_nil : name ≠ []
  isWord_name : ∀ c ∈ name, isWord c
  /-- The content holds no brace. -/
  braceFree : ∀ c ∈ content, isBrace c = false
  /-- The name ends where the content begins. -/
  border : content.head?.any isWord = false

/-- The head of a block that has a closing tag. -/
structure PairedHead extends BlockHead where
  /-- Its opening tag does not close itself. -/
  no_slash : content.getLast? ≠ some '/'

/-- The parts of a template that hold no other parts. -/
inductive Leaf where
  /-- A plain character. -/
  | char (c : Char) (hc : isBrace c = false)
  /-- An output in two braces. -/
  | output (e : ExpressionBody)
  /-- An output in three braces. -/
  | rawOutput (e : ExpressionBody)
  /-- A tag that closes itself. -/
  | selfClosing (head : BlockHead)

/-- A well-formed template. -/
inductive Template where
  | empty
  | leaf (item : Leaf) (rest : Template)
  /-- A block with what it holds, and what follows it. -/
  | block (head : PairedHead) (inner rest : Template)

/-! ### Source text -/

/-- A text in two braces. -/
def braced (body : List Char) : List Char :=
  ['{', '{'] ++ body ++ closingBraces

def Leaf.text : Leaf → List Char
  | .char c _ => [c]
  | .output e => braced e.text
  | .rawOutput e => '{' :: braced e.text ++ ['}']
  | .selfClosing head => braced ('#' :: (head.name ++ (head.content ++ ['/'])))

def PairedHead.openingText (head : PairedHead) : List Char :=
  braced ('#' :: (head.name ++ head.content))

def PairedHead.closingText (head : PairedHead) : List Char :=
  braced ('/' :: head.name)

def Template.text : Template → List Char
  | .empty => []
  | .leaf item rest => item.text ++ rest.text
  | .block head inner rest => head.openingText ++ inner.text ++ head.closingText ++ rest.text

/-! ### Tokens -/

/-- What a scan meets in a template. -/
inductive Token where
  | leaf (item : Leaf)
  | opening (head : PairedHead)
  | closing (head : PairedHead)

def Token.text : Token → List Char
  | .leaf item => item.text
  | .opening head => head.openingText
  | .closing head => head.closingText

/-- The text of tokens one after the other. -/
def textOf (tokens : List Token) : List Char :=
  tokens.flatMap Token.text

@[simp] theorem textOf_nil : textOf [] = [] := rfl

@[simp] theorem textOf_cons (token : Token) (tokens : List Token) :
    textOf (token :: tokens) = token.text ++ textOf tokens := rfl

@[simp] theorem textOf_append (tokens others : List Token) :
    textOf (tokens ++ others) = textOf tokens ++ textOf others :=
  List.flatMap_append

def Template.tokens : Template → List Token
  | .empty => []
  | .leaf item rest => .leaf item :: rest.tokens
  | .block head inner rest =>
    .opening head :: (inner.tokens ++ .closing head :: rest.tokens)

theorem Template.text_eq (t : Template) : t.text = textOf t.tokens := by
  induction t with
  | empty => rfl
  | leaf item rest ih => rw [text, tokens, textOf_cons, ih, Token.text]
  | block head inner rest ih₁ ih₂ =>
    rw [text, tokens, textOf_cons, textOf_append, textOf_cons, ih₁, ih₂]
    simp [Token.text]

/-! ### Blocks -/

/-- A block of a template with the text before it, inside it and behind it. -/
structure BlockSite where
  before : List Char
  head : PairedHead
  inner : List Char
  after : List Char

/-- The same block in a longer text. -/
def BlockSite.within (front back : List Char) (site : BlockSite) : BlockSite :=
  { site with before := front ++ site.before, after := site.after ++ back }

/-- The blocks of a template at every depth, in the order in which they open. -/
def Template.blocks : Template → List BlockSite
  | .empty => []
  | .leaf item rest => rest.blocks.map (BlockSite.within item.text [])
  | .block head inner rest =>
    ⟨[], head, inner.text, rest.text⟩ ::
      (inner.blocks.map (BlockSite.within head.openingText (head.closingText ++ rest.text)) ++
        rest.blocks.map
          (BlockSite.within (head.openingText ++ inner.text ++ head.closingText) []))

/-- The names of the blocks, in the order in which they open. -/
def Template.blockNames (t : Template) : List (List Char) :=
  t.blocks.map fun site => site.head.name

private theorem map_name_within (front back : List Char) (sites : List BlockSite) :
    (sites.map (BlockSite.within front back)).map (fun site => site.head.name) =
      sites.map fun site => site.head.name := by
  rw [List.map_map]
  rfl

private theorem Template.blockNames_leaf (item : Leaf) (rest : Template) :
    (Template.leaf item rest).blockNames = rest.blockNames := by
  rw [blockNames, blocks, map_name_within, blockNames]

private theorem Template.blockNames_block (head : PairedHead) (inner rest : Template) :
    (Template.block head inner rest).blockNames =
      head.name :: (inner.blockNames ++ rest.blockNames) := by
  rw [blockNames, blocks, List.map_cons, List.map_append, map_name_within, map_name_within,
    blockNames, blockNames]

/-- The tokens around a block. -/
theorem Template.exists_tokens_of_mem_blocks {t : Template} {site : BlockSite}
    (h : site ∈ t.blocks) :
    ∃ before inner after,
      t.tokens = before ++ .opening site.head :: (inner ++ .closing site.head :: after) ∧
        site.before = textOf before ∧ site.inner = textOf inner ∧ site.after = textOf after := by
  induction t generalizing site with
  | empty => simp [blocks] at h
  | leaf item rest ih =>
    obtain ⟨site, hsite, rfl⟩ := List.mem_map.mp h
    obtain ⟨before, inner, after, htokens, hbefore, hinner, hafter⟩ := ih hsite
    refine ⟨.leaf item :: before, inner, after, ?_, ?_, hinner, ?_⟩
    · rw [tokens, htokens]
      rfl
    · rw [textOf_cons, ← hbefore]
      rfl
    · rw [← hafter, BlockSite.within, List.append_nil]
  | block head inner rest ih₁ ih₂ =>
    -- the block itself, a block in it, or one behind it
    rcases List.mem_cons.mp h with rfl | h
    · exact ⟨[], inner.tokens, rest.tokens, rfl, rfl, inner.text_eq, rest.text_eq⟩
    rcases List.mem_append.mp h with h | h
    · obtain ⟨site, hsite, rfl⟩ := List.mem_map.mp h
      obtain ⟨before, middle, after, htokens, hbefore, hmiddle, hafter⟩ := ih₁ hsite
      refine ⟨.opening head :: before, middle, after ++ .closing head :: rest.tokens, ?_, ?_,
        hmiddle, ?_⟩
      · rw [tokens, htokens]
        simp [BlockSite.within]
      · rw [textOf_cons, ← hbefore]
        rfl
      · rw [textOf_append, textOf_cons, ← hafter, ← rest.text_eq]
        rfl
    · obtain ⟨site, hsite, rfl⟩ := List.mem_map.mp h
      obtain ⟨before, middle, after, htokens, hbefore, hmiddle, hafter⟩ := ih₂ hsite
      refine ⟨.opening head :: (inner.tokens ++ .closing head :: before), middle, after, ?_, ?_,
        hmiddle, ?_⟩
      · rw [tokens, htokens]
        simp [BlockSite.within]
      · rw [textOf_cons, textOf_append, textOf_cons, ← hbefore, ← inner.text_eq]
        simp [BlockSite.within, Token.text]
      · rw [← hafter, BlockSite.within, List.append_nil]

/-! ### Names in tokens -/

/-- The name that a token opens. -/
def Token.openingName? : Token → Option (List Char)
  | .opening head => some head.name
  | _ => none

/-- The name that a token closes. -/
def Token.closingName? : Token → Option (List Char)
  | .closing head => some head.name
  | _ => none

/-- The names that opening tokens have. -/
def openingNames (tokens : List Token) : List (List Char) :=
  tokens.filterMap Token.openingName?

/-- The names that closing tokens have. -/
def closingNames (tokens : List Token) : List (List Char) :=
  tokens.filterMap Token.closingName?

theorem Template.openingNames_tokens (t : Template) : openingNames t.tokens = t.blockNames := by
  induction t with
  | empty => rfl
  | leaf item rest ih => rw [blockNames_leaf, ← ih]; rfl
  | block head inner rest ih₁ ih₂ =>
    rw [blockNames_block, ← ih₁, ← ih₂]
    simp [openingNames, tokens, List.filterMap_cons, Token.openingName?]

/-- The tags of a template close the names that they open. -/
theorem Template.closingNames_tokens (t : Template) :
    (closingNames t.tokens).Perm t.blockNames := by
  induction t with
  | empty => exact .refl _
  | leaf item rest ih => rw [blockNames_leaf]; exact ih
  | block head inner rest ih₁ ih₂ =>
    have hnames : closingNames (Template.block head inner rest).tokens =
        closingNames inner.tokens ++ head.name :: closingNames rest.tokens := by
      simp [closingNames, tokens, List.filterMap_cons, Token.closingName?]
    rw [blockNames_block, hnames]
    exact List.perm_middle.trans ((ih₁.append ih₂).cons _)

end TemplateLint.Markup
