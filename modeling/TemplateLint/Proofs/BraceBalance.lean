import TemplateLint.Markup.Brace

/-!
# Balanced braces

`Balanced` is the grammar of balanced words: nothing, or an opening brace, a balanced word, its
closing brace and another balanced word. `balanced_braces_iff` ties it to the running depth: the
braces of a text are balanced exactly if no closing brace exceeds the opening ones before it and
none is left open at the end.

The depth is never reset and the grammar knows no depth, so the link between them is a word that
is read from the middle: `Completes depth word` says that the word closes `depth` braces opened
before it and is balanced otherwise.
-/

namespace TemplateLint.Markup

/-- Whether a character is a brace. -/
def isBrace (c : Char) : Bool := c == '{' || c == '}'

/-- The braces of a text. -/
def braces (text : List Char) : List Char := text.filter isBrace

/-- The balanced words: empty, or a pair of braces around one balanced word and before another. -/
inductive Balanced : List Char → Prop
  /-- Nothing is balanced. -/
  | nil : Balanced []
  /-- A brace is closed where the word in it ends. -/
  | pair {inner rest : List Char} (hinner : Balanced inner) (hrest : Balanced rest) :
    Balanced ('{' :: inner ++ '}' :: rest)

/-- A word that closes `depth` open braces, with balanced words before, between and behind. -/
def Completes : Nat → List Char → Prop
  | 0, word => Balanced word
  | depth + 1, word => ∃ inner rest, word = inner ++ '}' :: rest ∧ Balanced inner ∧
    Completes depth rest

/-- Balanced words one after the other are balanced. -/
theorem Balanced.append {word other : List Char} (hword : Balanced word)
    (hother : Balanced other) : Balanced (word ++ other) := by
  induction hword with
  | nil => exact hother
  | @pair inner rest hinner _ _ ih =>
    have happend : '{' :: inner ++ '}' :: rest ++ other =
        '{' :: inner ++ '}' :: (rest ++ other) := by simp
    rw [happend]
    exact .pair hinner ih

private theorem Balanced.exists_of_cons {c : Char} {word : List Char} (h : Balanced (c :: word)) :
    c = '{' ∧ ∃ inner rest, word = inner ++ '}' :: rest ∧ Balanced inner ∧ Balanced rest := by
  generalize hw : c :: word = whole at h
  cases h with
  | nil => simp at hw
  | @pair inner rest hinner hrest =>
    obtain ⟨hc, hword⟩ := List.cons.inj hw
    exact ⟨hc, inner, rest, hword, hinner, hrest⟩

namespace Completes

variable {depth : Nat} {word : List Char}

private theorem nil_iff : Completes depth [] ↔ depth = 0 := by
  cases depth with
  | zero => exact ⟨fun _ => rfl, fun _ => .nil⟩
  | succ depth => simp [Completes]

/-- One more open brace is one more to close. -/
private theorem open_iff : Completes depth ('{' :: word) ↔ Completes (depth + 1) word := by
  cases depth with
  | zero =>
    constructor
    · intro h
      obtain ⟨-, inner, rest, hword, hinner, hrest⟩ := Balanced.exists_of_cons h
      exact ⟨inner, rest, hword, hinner, hrest⟩
    · rintro ⟨inner, rest, rfl, hinner, hrest⟩
      exact .pair hinner hrest
  | succ depth =>
    constructor
    · rintro ⟨first, later, hword, hfirst, hlater⟩
      cases first with
      | nil => simp at hword
      | cons c first =>
        obtain ⟨-, inner, rest, rfl, hinner, hrest⟩ := hfirst.exists_of_cons
        obtain ⟨-, rfl⟩ := List.cons.inj hword
        exact ⟨inner, rest ++ '}' :: later, by simp, hinner, rest, later, rfl, hrest, hlater⟩
    · rintro ⟨inner, middle, rfl, hinner, rest, later, rfl, hrest, hlater⟩
      exact ⟨'{' :: inner ++ '}' :: rest, later, by simp, .pair hinner hrest, hlater⟩

/-- A closing brace closes the innermost open one. -/
private theorem close_iff : Completes (depth + 1) ('}' :: word) ↔ Completes depth word := by
  constructor
  · rintro ⟨inner, rest, hword, hinner, hrest⟩
    cases inner with
    | nil =>
      obtain ⟨-, rfl⟩ := List.cons.inj hword
      exact hrest
    | cons c inner =>
      obtain ⟨rfl, -⟩ := hinner.exists_of_cons
      simp at hword
  · intro h
    exact ⟨[], word, rfl, .nil, h⟩

private theorem not_close : ¬ Completes 0 ('}' :: word) := by
  intro h
  obtain ⟨hbrace, -⟩ := Balanced.exists_of_cons h
  simp at hbrace

end Completes

/-- From depth `depth` on, the running depth never falls below zero and ends there exactly if the
braces of the text close `depth` open ones. -/
private theorem completes_braces_iff (text : List Char) (pos depth : Nat) :
    Completes depth (braces text) ↔
      excessClosersFrom pos depth text = [] ∧ text.foldl stepDepth (depth : Int) ≤ 0 := by
  induction text generalizing pos depth with
  | nil =>
    rw [braces, List.filter_nil, Completes.nil_iff]
    simp only [excessClosersFrom, List.foldl_nil, true_and]
    omega
  | cons c text ih =>
    by_cases hopen : c = '{'
    · subst hopen
      have hstep : stepDepth depth '{' = ((depth + 1 : Nat) : Int) := by simp [stepDepth]
      have hword : braces ('{' :: text) = '{' :: braces text := rfl
      rw [hword, Completes.open_iff, ih (pos + 1), List.foldl_cons, hstep]
      simp [excessClosersFrom, hstep]
    · by_cases hclose : c = '}'
      · subst hclose
        have hword : braces ('}' :: text) = '}' :: braces text := rfl
        rw [hword]
        cases depth with
        | zero =>
          refine iff_of_false Completes.not_close fun h => ?_
          simp [excessClosersFrom, stepDepth] at h
        | succ depth =>
          have hstep : stepDepth ((depth + 1 : Nat) : Int) '}' = (depth : Int) := by
            simp [stepDepth]
          have hnonneg : ¬ ((depth : Int) < 0) := by omega
          rw [Completes.close_iff, ih (pos + 1), List.foldl_cons, hstep]
          simp only [excessClosersFrom, hstep, hnonneg, and_false, if_false]
      · have hstep : stepDepth (depth : Int) c = depth := by simp [stepDepth, hopen, hclose]
        have hword : braces (c :: text) = braces text := by
          simp [braces, isBrace, hopen, hclose]
        rw [hword, ih (pos + 1), List.foldl_cons, hstep]
        simp [excessClosersFrom, hstep, hclose]

/-- **The braces of a text are balanced** exactly if no closing brace is in excess and no brace is
left open. -/
theorem balanced_braces_iff (source : List Char) :
    Balanced (braces source) ↔ excessClosers source = [] ∧ endsOpen source = false := by
  have h := completes_braces_iff source 0 0
  rw [Completes] at h
  rw [h, excessClosers, endsOpen, braceDepth, decide_eq_false_iff_not, Int.not_lt]
  rfl

end TemplateLint.Markup
