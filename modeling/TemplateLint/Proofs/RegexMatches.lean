import TemplateLint.Text.Span
import TemplateLint.Text.Word

/-!
# Regular expressions with preferences

The marks of the template notation are described by regular expressions that a backtracking
matcher reads: where a part can match in several ways there is an order of preference, and the
first way that lets the rest match as well is taken. `Regex.stops` is that order itself, the list
of all places where a match from a given offset can end, the most preferred one first.

* `Regex.groupings`: every way in which a concatenation can match, with the text that each part
  takes, again in order of preference.
* `LeftmostMatches`: what a search from left to right finds. It is a relation, and
  `LeftmostMatches.unique` says that it leaves no choice. A search finds one list if no match is
  empty (`LeftmostMatches.exists_of_ne_nil`).

Repetition is of single characters only, which is all the notation asks for; so no repetition
can take an empty round, and no bound on the number of rounds is needed.
-/

namespace TemplateLint.Text

/-- A regular expression over characters. -/
inductive Regex where
  /-- One fixed text. -/
  | literal (mark : List Char)
  /-- One character of a class. -/
  | one (p : Char → Bool)
  /-- Characters of a class, as many as possible and perhaps none. -/
  | most (p : Char → Bool)
  /-- Characters of a class, as few as possible and perhaps none. -/
  | fewest (p : Char → Bool)
  /-- A part that is left out only if it has to be. -/
  | optional (inner : Regex)
  /-- One part and then another. -/
  | seq (first second : Regex)
  /-- Nothing, where exactly one of the two neighbouring characters is a word character. -/
  | wordBorder

/-- The ends of the runs of `p` that `text` begins with, the longest run first; the text stands at
offset `i`. -/
def longestFirst (p : Char → Bool) (i : Nat) : List Char → List Nat
  | [] => [i]
  | c :: text => if p c then longestFirst p (i + 1) text ++ [i] else [i]

/-- The ends of the runs of `p` that `text` begins with, the shortest run first. -/
def shortestFirst (p : Char → Bool) (i : Nat) : List Char → List Nat
  | [] => [i]
  | c :: text => if p c then i :: shortestFirst p (i + 1) text else [i]

namespace Regex

/-- Characters of a class, as many as possible and at least one. -/
def oneOrMore (p : Char → Bool) : Regex :=
  .seq (.one p) (.most p)

/-- The offsets at which a match from offset `i` on can end, in order of preference. -/
def stops (source : List Char) : Regex → Nat → List Nat
  | .literal mark, i => if mark.isPrefixOf (source.drop i) then [i + mark.length] else []
  | .one p, i => if (source.drop i).head?.any p then [i + 1] else []
  | .most p, i => longestFirst p i (source.drop i)
  | .fewest p, i => shortestFirst p i (source.drop i)
  | .optional inner, i => stops source inner i ++ [i]
  | .seq first second, i => (stops source first i).flatMap (stops source second)
  | .wordBorder, i =>
    if (source.take i).getLast?.any isWord != (source.drop i).head?.any isWord then [i] else []

/-- Whether a match can hold the character `c`. -/
def admits (c : Char) : Regex → Bool
  | .literal mark => mark.contains c
  | .one p | .most p | .fewest p => p c
  | .optional inner => admits c inner
  | .seq first second => admits c first || admits c second
  | .wordBorder => false

/-- The ways in which `parts` can match one after the other from offset `i` on, in order of
preference. Each is given by the texts that the parts take. -/
def groupings (source : List Char) : List Regex → Nat → List (List (List Char))
  | [], _ => [[]]
  | part :: parts, i =>
    (part.stops source i).flatMap fun j =>
      (groupings source parts j).map fun groups => (source.drop i).take (j - i) :: groups

end Regex

/-! ### The text of a match -/

/-- What follows a piece of text whose place is known. -/
theorem drop_add_length {source piece rest : List Char} {i : Nat}
    (h : source.drop i = piece ++ rest) : source.drop (i + piece.length) = rest := by
  rw [← List.drop_drop, h, List.drop_left]

theorem drop_succ_of_cons {source rest : List Char} {c : Char} {i : Nat}
    (h : source.drop i = c :: rest) : source.drop (i + 1) = rest := by
  rw [← List.drop_drop, h, List.drop_one, List.tail_cons]

/-- From offset `i` to offset `j` the text is a piece all of whose characters are of a class. -/
def Spells (source : List Char) (p : Char → Bool) (i j : Nat) : Prop :=
  ∃ piece, source.drop i = piece ++ source.drop j ∧ j = i + piece.length ∧ ∀ c ∈ piece, p c

namespace Spells

variable {source : List Char} {p q : Char → Bool} {i j k : Nat}

theorem refl (source : List Char) (p : Char → Bool) (i : Nat) : Spells source p i i :=
  ⟨[], rfl, rfl, by simp⟩

/-- A piece that is known with the text after it. -/
theorem of_append {piece rest : List Char} (h : source.drop i = piece ++ rest)
    (hpiece : ∀ c ∈ piece, p c) : Spells source p i (i + piece.length) :=
  ⟨piece, by rw [drop_add_length h, h], rfl, hpiece⟩

theorem of_cons {c : Char} {text : List Char} (h : source.drop i = c :: text) (hc : p c) :
    Spells source p i (i + 1) :=
  ⟨[c], by rw [drop_succ_of_cons h, h]; rfl, rfl, by simpa using hc⟩

theorem mono (h : Spells source p i j) (hpq : ∀ c, p c → q c) : Spells source q i j := by
  obtain ⟨piece, hpiece, hlength, hp⟩ := h
  exact ⟨piece, hpiece, hlength, fun c hc => hpq c (hp c hc)⟩

theorem trans (hij : Spells source p i j) (hjk : Spells source p j k) : Spells source p i k := by
  obtain ⟨left, hleft, rfl, hp₁⟩ := hij
  obtain ⟨right, hright, rfl, hp₂⟩ := hjk
  refine ⟨left ++ right, by rw [hleft, hright, List.append_assoc], by simp [Nat.add_assoc], ?_⟩
  intro c hc
  exact (List.mem_append.mp hc).elim (hp₁ c) (hp₂ c)

/-- Between two offsets of a text there is some piece of it. -/
theorem of_le_length (hij : i ≤ j) (hj : j ≤ source.length) :
    Spells source (fun _ => true) i j := by
  obtain ⟨k, rfl⟩ := Nat.exists_eq_add_of_le hij
  refine ⟨(source.drop i).take k, ?_, ?_, fun _ _ => rfl⟩
  · rw [← List.drop_drop, List.take_append_drop]
  · rw [List.length_take, List.length_drop]
    omega

/-- A piece of known text is of a class exactly if all its characters are. -/
theorem iff_of_append {piece rest : List Char} (h : source.drop i = piece ++ rest) :
    Spells source p i (i + piece.length) ↔ ∀ c ∈ piece, p c := by
  refine ⟨?_, of_append h⟩
  rintro ⟨other, hother, hlength, hp⟩
  rw [drop_add_length h] at hother
  obtain rfl : piece = other := (List.append_inj (h.symm.trans hother) (by omega)).1
  exact hp

theorem le (h : Spells source p i j) : i ≤ j := by
  obtain ⟨piece, -, rfl, -⟩ := h
  omega

/-- A piece less its beginning. -/
theorem of_le (h : Spells source p i j) (hik : i ≤ k) (hkj : k ≤ j) : Spells source p k j := by
  obtain ⟨piece, hpiece, rfl, hp⟩ := h
  obtain ⟨m, rfl⟩ := Nat.exists_eq_add_of_le hik
  refine ⟨piece.drop m, ?_, by rw [List.length_drop]; omega,
    fun c hc => hp c (List.mem_of_mem_drop hc)⟩
  rw [← List.drop_drop, hpiece, List.drop_append_of_le_length (by omega)]

/-- Each character between the two offsets is of the class. -/
theorem of_drop_eq_cons (h : Spells source p i j) (hik : i ≤ k) (hkj : k < j) {c : Char}
    {rest : List Char} (hc : source.drop k = c :: rest) : p c := by
  obtain ⟨piece, hpiece, rfl, hp⟩ := h
  obtain ⟨m, rfl⟩ := Nat.exists_eq_add_of_le hik
  rw [← List.drop_drop, hpiece, List.drop_append_of_le_length (by omega)] at hc
  cases hm : piece.drop m with
  | nil =>
    rw [List.drop_eq_nil_iff] at hm
    omega
  | cons d later =>
    rw [hm, List.cons_append] at hc
    obtain ⟨rfl, -⟩ := List.cons.inj hc
    exact hp d (List.mem_of_mem_drop (hm ▸ List.mem_cons_self))

end Spells

theorem spells_of_mem_longestFirst {source : List Char} {p : Char → Bool} {i j : Nat}
    {text : List Char} (htext : source.drop i = text) (h : j ∈ longestFirst p i text) :
    Spells source p i j := by
  induction text generalizing i with
  | nil =>
    rw [longestFirst, List.mem_singleton] at h
    exact h ▸ .refl source p i
  | cons c text ih =>
    rw [longestFirst] at h
    split at h
    · next hc =>
      rcases List.mem_append.mp h with h | h
      · exact (Spells.of_cons htext hc).trans (ih (drop_succ_of_cons htext) h)
      · exact List.mem_singleton.mp h ▸ .refl source p i
    · exact List.mem_singleton.mp h ▸ .refl source p i

theorem spells_of_mem_shortestFirst {source : List Char} {p : Char → Bool} {i j : Nat}
    {text : List Char} (htext : source.drop i = text) (h : j ∈ shortestFirst p i text) :
    Spells source p i j := by
  induction text generalizing i with
  | nil =>
    rw [shortestFirst, List.mem_singleton] at h
    exact h ▸ .refl source p i
  | cons c text ih =>
    rw [shortestFirst] at h
    split at h
    · next hc =>
      rcases List.mem_cons.mp h with h | h
      · exact h ▸ .refl source p i
      · exact (Spells.of_cons htext hc).trans (ih (drop_succ_of_cons htext) h)
    · exact List.mem_singleton.mp h ▸ .refl source p i

/-- A match takes a piece of the text, and the piece holds only characters that the expression
admits. -/
theorem Regex.spells_of_mem_stops {source : List Char} {r : Regex} {i j : Nat}
    (h : j ∈ r.stops source i) : Spells source (fun c => r.admits c) i j := by
  induction r generalizing i j with
  | literal mark =>
    rw [stops] at h
    split at h
    · next hmark =>
      obtain ⟨rest, hrest⟩ := List.isPrefixOf_iff_prefix.mp hmark
      obtain rfl := List.mem_singleton.mp h
      exact .of_append hrest.symm fun c hc => by simpa [admits] using hc
    · simp at h
  | one p =>
    rw [stops] at h
    split at h
    · next hp =>
      obtain rfl := List.mem_singleton.mp h
      cases hdrop : source.drop i with
      | nil => simp [hdrop] at hp
      | cons c rest =>
        have hc : p c := by simpa [hdrop] using hp
        exact .of_cons hdrop hc
    · simp at h
  | most p => exact spells_of_mem_longestFirst rfl h
  | fewest p => exact spells_of_mem_shortestFirst rfl h
  | optional inner ih =>
    rw [stops, List.mem_append, List.mem_singleton] at h
    rcases h with h | rfl
    · exact ih h
    · exact .refl source _ _
  | seq first second ih₁ ih₂ =>
    rw [stops, List.mem_flatMap] at h
    obtain ⟨k, hk, hj⟩ := h
    have hfirst := (ih₁ hk).mono (q := fun c => admits c (.seq first second)) fun c hc => by
      simp [admits, hc]
    have hsecond := (ih₂ hj).mono (q := fun c => admits c (.seq first second)) fun c hc => by
      simp [admits, hc]
    exact hfirst.trans hsecond
  | wordBorder =>
    rw [stops] at h
    split at h
    · exact List.mem_singleton.mp h ▸ .refl source _ _
    · simp at h

/-- The texts that the parts take stand one behind the other where the match begins. -/
private theorem Regex.flatten_prefix_of_mem_groupings {source : List Char} {parts : List Regex}
    {i : Nat} {groups : List (List Char)} (h : groups ∈ groupings source parts i) :
    groups.flatten <+: source.drop i := by
  induction parts generalizing i groups with
  | nil =>
    rw [groupings, List.mem_singleton] at h
    simp [h]
  | cons part parts ih =>
    rw [groupings, List.mem_flatMap] at h
    obtain ⟨j, hj, hgroups⟩ := h
    obtain ⟨later, hlater, rfl⟩ := List.mem_map.mp hgroups
    obtain ⟨piece, hpiece, rfl, -⟩ := spells_of_mem_stops hj
    rw [List.flatten_cons, Nat.add_sub_cancel_left, hpiece, List.take_left]
    exact (List.prefix_append_right_inj piece).mpr (ih hlater)

/-! ### Searching from left to right -/

/-- A match of a concatenation: where it begins and what each part takes. -/
structure RegexMatch where
  /-- Offset of the first character matched. -/
  start : Nat
  /-- The texts that the parts take. -/
  groups : List (List Char)
  deriving DecidableEq

/-- Offset just after a match. -/
def RegexMatch.stop (m : RegexMatch) : Nat :=
  m.start + m.groups.flatten.length

/-- The characters of a match. -/
def RegexMatch.span (m : RegexMatch) : Span :=
  Span.ofLength m.start m.groups.flatten.length

/-- The text that one of the parts takes, counted from zero. -/
def RegexMatch.group (m : RegexMatch) (k : Nat) : List Char :=
  m.groups.getD k []

/-- The matches that a search from left to right finds from the offset `cursor` on: the next match
is the preferred one at the first offset where there is any, and the search goes on where it
ends. -/
inductive LeftmostMatches (parts : List Regex) (source : List Char) :
    Nat → List RegexMatch → Prop
  /-- There is no match any more. -/
  | nil {cursor : Nat} (hnone : ∀ i, cursor ≤ i → Regex.groupings source parts i = []) :
    LeftmostMatches parts source cursor []
  /-- The next match and those behind it. -/
  | cons {cursor : Nat} {m : RegexMatch} {later : List RegexMatch} (hle : cursor ≤ m.start)
    (hnone : ∀ i, cursor ≤ i → i < m.start → Regex.groupings source parts i = [])
    (hfirst : (Regex.groupings source parts m.start).head? = some m.groups)
    (hlater : LeftmostMatches parts source m.stop later) :
    LeftmostMatches parts source cursor (m :: later)

namespace LeftmostMatches

variable {parts : List Regex} {source : List Char} {cursor next : Nat} {found : List RegexMatch}

/-- Offsets without a match can be passed over. -/
theorem of_skip (h : LeftmostMatches parts source next found) (hle : cursor ≤ next)
    (hskip : ∀ i, cursor ≤ i → i < next → Regex.groupings source parts i = []) :
    LeftmostMatches parts source cursor found := by
  cases h with
  | nil hnone =>
    refine .nil fun i hi => ?_
    rcases Nat.lt_or_ge i next with hlt | hge
    · exact hskip i hi hlt
    · exact hnone i hge
  | cons hnext hnone hfirst hlater =>
    refine .cons (by omega) (fun i hi hlt => ?_) hfirst hlater
    rcases Nat.lt_or_ge i next with hlt' | hge
    · exact hskip i hi hlt'
    · exact hnone i hge hlt

/-- A search comes to an end if no match is empty. -/
theorem exists_of_ne_nil (hne : ∀ i, ∀ groups ∈ Regex.groupings source parts i, groups.flatten ≠ [])
    (cursor : Nat) : ∃ found, LeftmostMatches parts source cursor found := by
  -- a match holds a character of the text, so none begins at or behind its end
  have hinside : ∀ i, ∀ groups ∈ Regex.groupings source parts i,
      0 < groups.flatten.length ∧ i + groups.flatten.length ≤ source.length := by
    intro i groups hgroups
    have hpos := List.length_pos_iff.mpr (hne i groups hgroups)
    have hlength := (Regex.flatten_prefix_of_mem_groupings hgroups).length_le
    rw [List.length_drop] at hlength
    omega
  induction hleft : source.length - cursor using Nat.strongRecOn generalizing cursor with
  | ind left ih =>
    cases hfirst : (Regex.groupings source parts cursor).head? with
    | none =>
      have hnone := List.head?_eq_none_iff.mp hfirst
      rcases Nat.lt_or_ge cursor source.length with hlt | hge
      · obtain ⟨found, hfound⟩ := ih _ (by omega) (cursor + 1) rfl
        refine ⟨found, hfound.of_skip (by omega) fun i hi hlt => ?_⟩
        rwa [show i = cursor by omega]
      · refine ⟨[], .nil fun i hi => List.eq_nil_iff_forall_not_mem.mpr fun groups hgroups => ?_⟩
        have hlength := hinside i groups hgroups
        omega
    | some groups =>
      have hlength := hinside cursor groups (List.mem_of_head? hfirst)
      obtain ⟨later, hlater⟩ := ih _ (by omega) (cursor + groups.flatten.length) rfl
      exact ⟨⟨cursor, groups⟩ :: later, .cons (Nat.le_refl _)
        (fun i hi (hlt : i < cursor) => by omega) hfirst hlater⟩

/-- A search finds one list of matches and no other. -/
theorem unique {other : List RegexMatch} (h : LeftmostMatches parts source cursor found)
    (hother : LeftmostMatches parts source cursor other) : found = other := by
  induction h generalizing other with
  | nil hnone =>
    cases hother with
    | nil => rfl
    | cons hle _ hfirst _ =>
      rw [hnone _ hle] at hfirst
      simp at hfirst
  | @cons cursor m later hle hnone hfirst _ ih =>
    cases hother with
    | nil hnone' =>
      rw [hnone' _ hle] at hfirst
      simp at hfirst
    | @cons _ m' later' hle' hnone' hfirst' hlater' =>
      -- neither search can have passed over the other's first match
      have hstart : m.start = m'.start := by
        rcases Nat.lt_trichotomy m.start m'.start with hlt | heq | hgt
        · rw [hnone' _ hle hlt] at hfirst
          simp at hfirst
        · exact heq
        · rw [hnone _ hle' hgt] at hfirst'
          simp at hfirst'
      rw [← hstart, hfirst, Option.some.injEq] at hfirst'
      obtain rfl : m = m' := by
        cases m
        cases m'
        simp_all
      rw [ih hlater']

/-- A stricter expression finds the matches that it keeps, each at its place, if it matches nowhere
else: neither where there was no match before nor inside a match that it leaves out. -/
theorem exists_stricter {stricter : List Regex} {keep : RegexMatch → Bool}
    (h : LeftmostMatches parts source cursor found)
    (hnone : ∀ i, Regex.groupings source parts i = [] → Regex.groupings source stricter i = [])
    (hkept : ∀ m ∈ found, keep m → ∃ groups,
      (Regex.groupings source stricter m.start).head? = some groups ∧
        groups.flatten.length = m.groups.flatten.length)
    (hleft : ∀ m ∈ found, ¬ keep m → ∀ i, m.start ≤ i → i < m.stop →
      Regex.groupings source stricter i = []) :
    ∃ others, LeftmostMatches stricter source cursor others ∧
      others.map RegexMatch.span = (found.filter keep).map RegexMatch.span := by
  induction h with
  | nil hnil => exact ⟨[], .nil fun i hi => hnone i (hnil i hi), rfl⟩
  | @cons cursor m later hle hbefore _ _ ih =>
    obtain ⟨hkept₀, hkept⟩ := List.forall_mem_cons.mp hkept
    obtain ⟨hleft₀, hleft⟩ := List.forall_mem_cons.mp hleft
    obtain ⟨others, hothers, hspans⟩ := ih hkept hleft
    have hskip : ∀ i, cursor ≤ i → i < m.start → Regex.groupings source stricter i = [] :=
      fun i hi hlt => hnone i (hbefore i hi hlt)
    by_cases hm : keep m
    · obtain ⟨groups, hgroups, hlength⟩ := hkept₀ hm
      have hstop : RegexMatch.stop ⟨m.start, groups⟩ = m.stop := by
        rw [RegexMatch.stop, RegexMatch.stop, hlength]
      refine ⟨⟨m.start, groups⟩ :: others, .cons hle hskip hgroups (hstop ▸ hothers), ?_⟩
      rw [List.filter_cons_of_pos hm, List.map_cons, List.map_cons, hspans, RegexMatch.span,
        RegexMatch.span, hlength]
    · refine ⟨others, hothers.of_skip ?_ fun i hi hlt => ?_, ?_⟩
      · rw [RegexMatch.stop]
        omega
      · rcases Nat.lt_or_ge i m.start with hlt' | hge
        · exact hskip i hi hlt'
        · exact hleft₀ hm i hge hlt
      · rw [List.filter_cons_of_neg hm, hspans]

/-- A search that is known to find one list finds exactly the lists equal to it. -/
theorem iff_eq (h : LeftmostMatches parts source cursor found) (other : List RegexMatch) :
    LeftmostMatches parts source cursor other ↔ other = found :=
  ⟨fun hother => hother.unique h, fun heq => heq ▸ h⟩

end LeftmostMatches

end TemplateLint.Text
