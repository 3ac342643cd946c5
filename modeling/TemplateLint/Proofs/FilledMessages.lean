import TemplateLint.Proofs.Wordings

/-!
# What becomes of the wordings of the catalogue

`Message.Renders` says what a wording becomes, on the texts themselves and token by token from left
to right: two equal braces are one brace, a name between single braces is the value of that name,
and any other character stands for itself. `Message.FirstMissing` is the other outcome: everything
up to a hole can be rendered, and that hole has no value. A value enters the text only where a hole
is rendered, and what follows it there comes from what follows the hole in the wording, so braces
in a value are never read.

Every wording of the catalogue has one of the two outcomes, whatever the values are
(`Renders.or_firstMissing`), and filling a wording gives the one that applies
(`Renders.format_eq_ok`, `FirstMissing.format_eq_error`). `Diagnostic.ofSpec_fills` puts this
together for the findings.
-/

namespace TemplateLint

open TemplateLint.Text

namespace Message

/-! ### Rendering on texts -/

/-- A name that can stand in a hole. -/
def IsName (name : String) : Prop :=
  name ≠ "" ∧ name.toList.all isWord

instance (name : String) : Decidable (IsName name) :=
  inferInstanceAs (Decidable (_ ∧ _))

/-- How a hole is written. -/
def holeText (name : String) : List Char :=
  '{' :: name.toList ++ ['}']

/-- What one token of a wording becomes. -/
inductive Becomes (fields : Fields) : List Char → List Char → Prop where
  | openBrace : Becomes fields ['{', '{'] ['{']
  | closeBrace : Becomes fields ['}', '}'] ['}']
  /-- The value is put in as it is, whatever characters it has. -/
  | hole {name : String} {value : FieldValue} (hname : IsName name)
      (hvalue : fields.lookup name = some value) :
      Becomes fields (holeText name) value.display.toList
  | char {c : Char} (hopen : c ≠ '{') (hclose : c ≠ '}') : Becomes fields [c] [c]

/-- What a wording becomes, read from left to right. -/
inductive Renders (fields : Fields) : List Char → List Char → Prop where
  | nil : Renders fields [] []
  | cons {token output wording text : List Char} (first : Becomes fields token output)
      (rest : Renders fields wording text) : Renders fields (token ++ wording) (output ++ text)

/-- The first hole of the wording without a value is that for `name`: what stands before it can be
rendered. -/
def FirstMissing (fields : Fields) (wording : List Char) (name : String) : Prop :=
  ∃ before text later, Renders fields before text ∧ wording = before ++ holeText name ++ later ∧
    IsName name ∧ fields.lookup name = none

/-! ### The parts of a wording -/

section Parts

variable {name : String} {c : Char} (later : List Char)

private theorem pieces_char (hopen : c ≠ '{') (hclose : c ≠ '}') :
    pieces (c :: later) = .literal c :: pieces later := by
  rw [pieces]
  · rintro - rfl
    exact absurd rfl hopen
  · rintro - rfl
    exact absurd rfl hclose
  · rintro rfl
    exact absurd rfl hopen

private theorem pieces_hole (hname : IsName name) :
    pieces (holeText name ++ later) = .hole name :: pieces later := by
  have hword : ∀ c ∈ name.toList, isWord c := List.all_eq_true.mp hname.2
  have hbody : ∀ c ∈ name.toList, (c != '}') = true := by
    intro c hc
    rw [bne_iff_ne]
    rintro rfl
    simpa using hword _ hc
  have htake : (name.toList ++ '}' :: later).takeWhile (· != '}') = name.toList := by
    rw [List.takeWhile_append_of_pos hbody]
    simp
  have hdrop : (name.toList ++ '}' :: later).dropWhile (· != '}') = '}' :: later := by
    rw [List.dropWhile_append_of_pos hbody]
    simp
  have htext : holeText name ++ later = '{' :: (name.toList ++ '}' :: later) := by
    simp [holeText]
  rw [htext, pieces]
  · split
    · next h => simp [hdrop] at h
    · next rest h =>
      rw [hdrop] at h
      cases h
      rw [htake, String.ofList_toList]
  · -- a hole does not begin with two braces, since no brace is part of a name
    intro rest h
    cases hchars : name.toList with
    | nil => exact hname.1 (String.toList_eq_nil_iff.mp hchars)
    | cons c tail =>
      rw [hchars, List.cons_append, List.cons.injEq] at h
      have hc : isWord c := hword c (by rw [hchars]; exact List.mem_cons_self)
      rw [h.1, isWord_openBrace] at hc
      exact absurd hc (by decide)

end Parts

/-! ### Tokens -/

namespace Becomes

variable {fields others : Fields} {token output : List Char}

/-- A token is one part of any wording that begins with it. -/
private theorem exists_piece (h : Becomes fields token output) :
    ∃ piece, Filled fields [piece] (String.ofList output) ∧
      ∀ later, pieces (token ++ later) = piece :: pieces later := by
  cases h with
  | openBrace => exact ⟨.literal '{', ⟨rfl, rfl⟩, fun later => by simp [pieces]⟩
  | closeBrace => exact ⟨.literal '}', ⟨rfl, rfl⟩, fun later => by simp [pieces]⟩
  | @hole name value hname hvalue =>
    rw [String.ofList_toList]
    exact ⟨.hole name, .hole hvalue, fun later => pieces_hole later hname⟩
  | @char c hopen hclose =>
    exact ⟨.literal c, ⟨rfl, by simp [Piece.fill]⟩, fun later => pieces_char later hopen hclose⟩

/-- What a token becomes depends on no name but its own. -/
theorem congr (h : Becomes fields token output)
    (hfields : ∀ name, IsName name → holeText name <:+: token →
      others.lookup name = fields.lookup name) : Becomes others token output := by
  cases h with
  | openBrace => exact .openBrace
  | closeBrace => exact .closeBrace
  | @hole name value hname hvalue =>
    have hsame := hfields name hname (List.infix_refl _)
    exact .hole hname (hsame.trans hvalue)
  | char hopen hclose => exact .char hopen hclose

/-- With other values a token still becomes something, unless it is a hole without a value. -/
private theorem or_missing (h : Becomes others token output) (fields : Fields) :
    (∃ output, Becomes fields token output) ∨
      ∃ name, token = holeText name ∧ IsName name ∧ fields.lookup name = none := by
  cases h with
  | openBrace => exact .inl ⟨_, .openBrace⟩
  | closeBrace => exact .inl ⟨_, .closeBrace⟩
  | @hole name value hname hvalue =>
    cases hlookup : fields.lookup name with
    | none => exact .inr ⟨name, rfl, hname, hlookup⟩
    | some value => exact .inl ⟨_, .hole hname hlookup⟩
  | char hopen hclose => exact .inl ⟨_, .char hopen hclose⟩

end Becomes

/-! ### Wordings -/

section Wordings

variable {fields others : Fields} {wording text before : List Char} {name message : String}

/-- The parts of what can be rendered do not depend on what follows it. -/
private theorem Renders.pieces_append (h : Renders fields before text) (later : List Char) :
    pieces (before ++ later) = pieces before ++ pieces later := by
  induction h with
  | nil => rw [pieces, List.nil_append, List.nil_append]
  | cons first rest ih =>
    obtain ⟨piece, -, hpieces⟩ := first.exists_piece
    rw [List.append_assoc, hpieces, hpieces, ih, List.cons_append]

/-- The parts of a wording that can be rendered spell the text that it becomes. -/
theorem Renders.filled (h : Renders fields wording text) :
    Filled fields (pieces wording) (String.ofList text) := by
  induction h with
  | nil =>
    rw [pieces]
    exact ⟨rfl, rfl⟩
  | cons first rest ih =>
    obtain ⟨piece, hpiece, hpieces⟩ := first.exists_piece
    rw [hpieces, String.ofList_append]
    exact hpiece.append ih

theorem Renders.format_eq_ok (h : Renders fields message.toList text) :
    format message fields = .ok (String.ofList text) :=
  h.filled.format_eq_ok rfl

theorem FirstMissing.format_eq_error (h : FirstMissing fields message.toList name) :
    format message fields = .error name := by
  obtain ⟨before, text, later, hbefore, hmessage, hname, hlookup⟩ := h
  have hpieces : pieces message.toList = pieces before ++ .hole name :: pieces later := by
    rw [hmessage, List.append_assoc, hbefore.pieces_append, pieces_hole later hname]
  have hmissing : missing? fields (pieces message.toList) = some name := by
    rw [hpieces, missing?_append, hbefore.filled.complete]
    simp [missing?, hlookup]
  simp only [format, hmissing]

/-- Values for names that stand nowhere between braces do not matter. -/
theorem Renders.congr (h : Renders fields wording text)
    (hfields : ∀ name, IsName name → holeText name <:+: wording →
      others.lookup name = fields.lookup name) : Renders others wording text := by
  induction h with
  | nil => exact .nil
  | @cons token output wording text first rest ih =>
    refine .cons (first.congr fun name hname hhole => ?_) (ih fun name hname hhole => ?_)
    · exact hfields name hname (hhole.trans (List.prefix_append token wording).isInfix)
    · exact hfields name hname (hhole.trans (List.suffix_append token wording).isInfix)

theorem FirstMissing.congr (h : FirstMissing fields wording name)
    (hfields : ∀ name, IsName name → holeText name <:+: wording →
      others.lookup name = fields.lookup name) : FirstMissing others wording name := by
  obtain ⟨before, text, later, hbefore, rfl, hname, hlookup⟩ := h
  have hmissing := hfields name hname ⟨before, later, rfl⟩
  refine ⟨before, text, later, hbefore.congr fun other hother hhole => ?_, rfl, hname,
    hmissing.trans hlookup⟩
  rw [List.append_assoc] at hfields
  exact hfields other hother (hhole.trans (List.prefix_append before _).isInfix)

/-- A wording that some values turn into a text has one of the two outcomes with any values. -/
theorem Renders.or_firstMissing (h : Renders others wording text) (fields : Fields) :
    (∃ text, Renders fields wording text) ∨ ∃ name, FirstMissing fields wording name := by
  induction h with
  | nil => exact .inl ⟨[], .nil⟩
  | @cons token _ wording _ first rest ih =>
    rcases first.or_missing fields with ⟨output, hfirst⟩ | ⟨name, rfl, hname, hlookup⟩
    · rcases ih with ⟨text, hrest⟩ | ⟨name, before, text, later, hbefore, rfl, hname, hlookup⟩
      · exact .inl ⟨_, .cons hfirst hrest⟩
      · exact .inr ⟨name, token ++ before, _, later, .cons hfirst hbefore, by simp, hname, hlookup⟩
    · exact .inr ⟨name, [], [], wording, .nil, rfl, hname, hlookup⟩

end Wordings

/-! ### Writing a wording -/

/-- How a part is written: braces are doubled. -/
def Piece.written : Piece → List Char
  | .literal c => if c = '{' ∨ c = '}' then [c, c] else [c]
  | .hole name => holeText name

/-- Whether a part is a character or a hole to which `fields` gives a value. -/
def Piece.isGiven (fields : Fields) : Piece → Bool
  | .literal _ => true
  | .hole name => decide (IsName name) && (fields.lookup name).isSome

/-- What is written for parts is rendered as they are filled. -/
private theorem renders_written {fields : Fields} {parts : List Piece}
    (hparts : ∀ part ∈ parts, part.isGiven fields) :
    Renders fields (parts.flatMap Piece.written) (parts.flatMap (Piece.fill fields)) := by
  induction parts with
  | nil => exact .nil
  | cons part parts ih =>
    rw [List.forall_mem_cons] at hparts
    rw [List.flatMap_cons, List.flatMap_cons]
    refine .cons ?_ (ih hparts.2)
    cases part with
    | literal c =>
      rw [Piece.written, Piece.fill]
      split
      · next hbrace =>
        rcases hbrace with rfl | rfl
        · exact .openBrace
        · exact .closeBrace
      · next hbrace =>
        rw [not_or] at hbrace
        exact .char hbrace.1 hbrace.2
    | hole name =>
      have hgiven := hparts.1
      rw [Piece.isGiven, Bool.and_eq_true, decide_eq_true_eq, Option.isSome_iff_exists] at hgiven
      obtain ⟨hname, value, hvalue⟩ := hgiven
      have hfill : Piece.fill fields (.hole name) = value.display.toList := by
        simp [Piece.fill, hvalue]
      rw [hfill]
      exact .hole hname hvalue

/-- A text that is written as its parts are can be rendered. Literals unify with the lists of their
characters here, which spares taking them apart. -/
private theorem renders_ofList {fields : Fields} (wording text : List Char)
    (hwritten : (pieces wording).flatMap Piece.written = wording)
    (hgiven : (pieces wording).all (Piece.isGiven fields))
    (htext : (pieces wording).flatMap (Piece.fill fields) = text) :
    Renders fields (String.ofList wording).toList (String.ofList text).toList := by
  have hparts := renders_written (List.all_eq_true.mp hgiven)
  rw [hwritten, htext] at hparts
  rwa [String.toList_ofList, String.toList_ofList]

end Message

open Message

/-- Values for all holes of the catalogue. -/
def Catalogue.blankFields : Fields :=
  ["name", "position", "expression", "count"].map (·, .text "")

/-- The wordings of the catalogue can be rendered. -/
private theorem Catalogue.exists_renders {spec : Spec} (h : spec ∈ specs) :
    ∃ text, Renders blankFields spec.message.toList text := by
  simp only [specs, List.mem_cons, List.not_mem_nil, or_false] at h
  rcases h with rfl | rfl | rfl | rfl | rfl | rfl | rfl | rfl | rfl | rfl | rfl | rfl <;>
    exact ⟨_, renders_ofList _ _ (by decide +kernel) (by decide +kernel) rfl⟩

namespace Diagnostic

variable {spec : Spec} {fields : Fields} {text : List Char} {name : String}

theorem ofSpec_of_renders (h : Renders fields spec.message.toList text) (hfields : fields ≠ [])
    (span : Option Span) :
    ofSpec spec span fields = .ok (spec.worded (String.ofList text) span) := by
  simp only [ofSpec, List.isEmpty_eq_false_iff.mpr hfields, h.format_eq_ok]
  rfl

theorem ofSpec_of_firstMissing (h : FirstMissing fields spec.message.toList name)
    (hfields : fields ≠ []) (span : Option Span) : ofSpec spec span fields = .error ⟨name⟩ := by
  simp only [ofSpec, List.isEmpty_eq_false_iff.mpr hfields, h.format_eq_error]
  rfl

/-- **Findings fill the wordings of the catalogue.** Without values the message of a finding is the
wording as it stands. With values, the finding is refused exactly if a hole has none, and the first
such hole is named. Otherwise its message is what the wording becomes: doubled braces are one, each
hole is its value as it is, and everything else stays. Values for names that are no holes make no
difference. -/
theorem ofSpec_fills (hspec : spec ∈ Catalogue.specs) (span : Option Span) (fields : Fields) :
    ofSpec spec span [] = .ok (spec.worded spec.message span) ∧
    (fields ≠ [] →
      (∀ name, ofSpec spec span fields = .error ⟨name⟩ ↔
        FirstMissing fields spec.message.toList name) ∧
      (∀ d, ofSpec spec span fields = .ok d ↔
        ∃ message, Renders fields spec.message.toList message.toList ∧
          d = spec.worded message span) ∧
      ∀ others, others ≠ [] →
        (∀ name, IsName name → holeText name <:+: spec.message.toList →
          others.lookup name = fields.lookup name) →
        ofSpec spec span others = ofSpec spec span fields) := by
  refine ⟨rfl, fun hfields => ?_⟩
  obtain ⟨blank, hblank⟩ := Catalogue.exists_renders hspec
  have houtcome := hblank.or_firstMissing fields
  refine ⟨fun name => ⟨fun h => ?_, fun h => ofSpec_of_firstMissing h hfields span⟩,
    fun d => ⟨fun h => ?_, ?_⟩, fun others hothers hsame => ?_⟩
  · rcases houtcome with ⟨text, htext⟩ | ⟨first, hfirst⟩
    · rw [ofSpec_of_renders htext hfields span] at h
      cases h
    · rw [ofSpec_of_firstMissing hfirst hfields span] at h
      cases h
      exact hfirst
  · rcases houtcome with ⟨text, htext⟩ | ⟨first, hfirst⟩
    · rw [ofSpec_of_renders htext hfields span] at h
      cases h
      exact ⟨String.ofList text, by rwa [String.toList_ofList], rfl⟩
    · rw [ofSpec_of_firstMissing hfirst hfields span] at h
      cases h
  · rintro ⟨message, hmessage, rfl⟩
    rw [ofSpec_of_renders hmessage hfields span, String.ofList_toList]
  · rcases houtcome with ⟨text, htext⟩ | ⟨first, hfirst⟩
    · rw [ofSpec_of_renders htext hfields span,
        ofSpec_of_renders (htext.congr hsame) hothers span]
    · rw [ofSpec_of_firstMissing hfirst hfields span,
        ofSpec_of_firstMissing (hfirst.congr hsame) hothers span]

/-- Braces in the name of a tag are quoted as they are, also where they look like a hole. -/
theorem ofSpec_fills_braces :
    Catalogue.unmatchedTag ∈ Catalogue.specs ∧
      ofSpec Catalogue.unmatchedTag none
          [("position", .number (-3)), ("name", .text "\x7b\x7bposition\x7d\x7d"),
            ("count", .text "\x7bname\x7d")] =
        .ok (Catalogue.unmatchedTag.worded
          "Unclosed tag \"\x7b\x7b#\x7b\x7bposition\x7d\x7d\x7d\x7d\" at position -3" none) :=
  ⟨List.mem_cons_self, (((ofSpec_fills List.mem_cons_self none _).2 (by decide)).2.1 _).mpr
    ⟨_, renders_ofList _ _ (by decide +kernel) (by decide +kernel) (by decide +kernel), rfl⟩⟩

end Diagnostic

end TemplateLint
