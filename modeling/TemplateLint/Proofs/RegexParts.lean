import TemplateLint.Text.Find
import TemplateLint.Proofs.RegexMatches

/-!
# How the parts of an expression match

Equations for `Regex.stops` and `Regex.groupings` at a place where the text is known: literals,
runs of characters, borders of words, and a run with a mark behind it.

* `groupings_most_literal`, `groupings_oneOrMore_literal`: if the mark cannot begin inside the run
  there is at most one way to match, since the run is never cut short.
* `pairwise_longestFirst`: a run is tried in all its lengths, the longer ones first, and a mark
  before or behind it does not change that order.
* `head?_groupings_fewest_literal`: a run that is as short as possible ends where the mark stands
  for the first time.
-/

namespace TemplateLint.Text

variable {source : List Char} {i j : Nat} {p : Char → Bool}

/-! ### Literals -/

theorem stops_literal_of_append {mark rest : List Char} (h : source.drop i = mark ++ rest) :
    (Regex.literal mark).stops source i = [i + mark.length] := by
  rw [Regex.stops, h, if_pos (List.isPrefixOf_iff_prefix.mpr ⟨rest, rfl⟩)]

theorem stops_literal_of_after?_eq_none {mark : List Char}
    (h : after? mark (source.drop i) = none) : (Regex.literal mark).stops source i = [] := by
  unfold after? at h
  split at h
  · simp at h
  · next hmark => rw [Regex.stops, if_neg hmark]

theorem mem_stops_literal {mark : List Char} :
    j ∈ (Regex.literal mark).stops source i ↔
      (∃ rest, source.drop i = mark ++ rest) ∧ j = i + mark.length := by
  constructor
  · intro h
    cases hafter : after? mark (source.drop i) with
    | none => simp [stops_literal_of_after?_eq_none hafter] at h
    | some rest =>
      have hrest := after?_eq_some_iff.mp hafter
      rw [stops_literal_of_append hrest] at h
      exact ⟨⟨rest, hrest⟩, List.mem_singleton.mp h⟩
  · rintro ⟨⟨rest, hrest⟩, rfl⟩
    rw [stops_literal_of_append hrest]
    exact List.mem_singleton_self _

/-- A literal at the front of a concatenation is taken off. -/
theorem stops_seq_literal {mark rest : List Char} (h : source.drop i = mark ++ rest) (r : Regex) :
    (Regex.seq (.literal mark) r).stops source i = r.stops source (i + mark.length) := by
  rw [Regex.stops, stops_literal_of_append h, List.flatMap_singleton]

theorem stops_seq_literal_of_after?_eq_none {mark : List Char}
    (h : after? mark (source.drop i) = none) (r : Regex) :
    (Regex.seq (.literal mark) r).stops source i = [] := by
  rw [Regex.stops, stops_literal_of_after?_eq_none h, List.flatMap_nil]

/-- What a concatenation that begins with a literal takes. -/
theorem mem_stops_seq_literal {mark : List Char} {r : Regex} :
    j ∈ (Regex.seq (.literal mark) r).stops source i ↔
      (∃ rest, source.drop i = mark ++ rest) ∧ j ∈ r.stops source (i + mark.length) := by
  rw [Regex.stops, List.mem_flatMap]
  constructor
  · rintro ⟨k, hk, hj⟩
    obtain ⟨hrest, rfl⟩ := mem_stops_literal.mp hk
    exact ⟨hrest, hj⟩
  · rintro ⟨hrest, hj⟩
    exact ⟨_, mem_stops_literal.mpr ⟨hrest, rfl⟩, hj⟩

theorem groupings_literal (source mark : List Char) (i : Nat) :
    Regex.groupings source [.literal mark] i =
      if mark.isPrefixOf (source.drop i) then [[mark]] else [] := by
  simp only [Regex.groupings, Regex.stops]
  split
  · next hmark =>
    obtain ⟨rest, hrest⟩ := List.isPrefixOf_iff_prefix.mp hmark
    rw [List.flatMap_singleton, List.map_singleton, Nat.add_sub_cancel_left, ← hrest,
      List.take_left]
  · rfl

/-! ### Runs of characters -/

/-- A run of characters is taken whole, up to what stands behind it. -/
theorem takeWhile_append_of_head? {run rest : List Char}
    (hrun : ∀ c ∈ run, p c) (hrest : rest.head?.any p = false) :
    (run ++ rest).takeWhile p = run := by
  have hnil : rest.takeWhile p = [] := by
    cases rest with
    | nil => rfl
    | cons c rest => exact List.takeWhile_cons_of_neg (by simpa using hrest)
  rw [List.takeWhile_append_of_pos hrun, hnil, List.append_nil]

theorem dropWhile_append_of_head? {run rest : List Char} (hrun : ∀ c ∈ run, p c)
    (hrest : rest.head?.any p = false) : (run ++ rest).dropWhile p = rest := by
  have happend := List.takeWhile_append_dropWhile (p := p) (l := run ++ rest)
  rw [takeWhile_append_of_head? hrun hrest] at happend
  exact List.append_cancel_left happend

theorem head?_any_dropWhile (p : Char → Bool) (text : List Char) :
    (text.dropWhile p).head?.any p = false := by
  cases hrest : (text.dropWhile p).head? with
  | none => rfl
  | some c =>
    have hc := List.head?_dropWhile_not p text
    rw [hrest] at hc
    simpa using hc

/-- The whole run is the preferred one. -/
theorem head?_longestFirst (p : Char → Bool) (i : Nat) (text : List Char) :
    (longestFirst p i text).head? = some (i + (text.takeWhile p).length) := by
  induction text generalizing i with
  | nil => rfl
  | cons c text ih =>
    rw [longestFirst, List.takeWhile_cons]
    split
    · rw [List.head?_append, ih, Option.some_or, List.length_cons]
      congr 1
      omega
    · rfl

/-- Every shorter run is among the runs tried. -/
private theorem mem_longestFirst {run : List Char} (hrun : ∀ c ∈ run, p c) (i : Nat)
    (rest : List Char) : i + run.length ∈ longestFirst p i (run ++ rest) := by
  induction run generalizing i with
  | nil =>
    cases rest with
    | nil => simp [longestFirst]
    | cons c rest => rw [List.nil_append, longestFirst]; split <;> simp
  | cons c run ih =>
    obtain ⟨hc, hrun⟩ := List.forall_mem_cons.mp hrun
    rw [List.cons_append, longestFirst, if_pos hc, List.length_cons]
    have hmem := ih hrun (i + 1)
    rw [show i + (run.length + 1) = i + 1 + run.length by omega]
    exact List.mem_append_left _ hmem

private theorem le_of_mem_longestFirst {text : List Char} (h : j ∈ longestFirst p i text) :
    i ≤ j := by
  induction text generalizing i with
  | nil => exact Nat.le_of_eq (List.mem_singleton.mp h).symm
  | cons c text ih =>
    rw [longestFirst] at h
    split at h
    · rcases List.mem_append.mp h with h | h
      · have hle := ih h
        omega
      · exact Nat.le_of_eq (List.mem_singleton.mp h).symm
    · exact Nat.le_of_eq (List.mem_singleton.mp h).symm

/-- Longer runs are tried first. -/
theorem pairwise_longestFirst (p : Char → Bool) (i : Nat) (text : List Char) :
    (longestFirst p i text).Pairwise (· > ·) := by
  induction text generalizing i with
  | nil => exact List.pairwise_singleton _ _
  | cons c text ih =>
    rw [longestFirst]
    split
    · rw [List.pairwise_append]
      refine ⟨ih (i + 1), List.pairwise_singleton _ _, fun j hj k hk => ?_⟩
      have hle := le_of_mem_longestFirst hj
      rw [List.mem_singleton] at hk
      omega
    · exact List.pairwise_singleton _ _

private theorem mem_shortestFirst {run : List Char} (hrun : ∀ c ∈ run, p c) (i : Nat)
    (rest : List Char) : i + run.length ∈ shortestFirst p i (run ++ rest) := by
  induction run generalizing i with
  | nil =>
    rcases rest with _ | ⟨c, rest⟩
    · simp [shortestFirst]
    · rw [List.nil_append, shortestFirst]
      split <;> simp
  | cons c run ih =>
    obtain ⟨hc, hrun⟩ := List.forall_mem_cons.mp hrun
    rw [List.cons_append, shortestFirst, if_pos hc, List.length_cons,
      show i + (run.length + 1) = i + 1 + run.length by omega]
    exact List.mem_cons_of_mem _ (ih hrun (i + 1))

/-- A run may end wherever its characters allow; only the order of preference tells the longest run
from the shortest. -/
theorem mem_stops_most : j ∈ (Regex.most p).stops source i ↔ Spells source p i j := by
  refine ⟨fun h => spells_of_mem_longestFirst rfl h, ?_⟩
  rintro ⟨piece, hpiece, rfl, hp⟩
  rw [Regex.stops, hpiece]
  exact mem_longestFirst hp i _

theorem mem_stops_fewest : j ∈ (Regex.fewest p).stops source i ↔ Spells source p i j := by
  refine ⟨fun h => spells_of_mem_shortestFirst rfl h, ?_⟩
  rintro ⟨piece, hpiece, rfl, hp⟩
  rw [Regex.stops, hpiece]
  exact mem_shortestFirst hp i _

theorem stops_oneOrMore_cons {c : Char} {text : List Char}
    (h : source.drop i = c :: text) (hc : p c) :
    (Regex.oneOrMore p).stops source i = longestFirst p (i + 1) text := by
  simp only [Regex.oneOrMore, Regex.stops, h, List.head?_cons, Option.any_some, hc, if_true,
    List.flatMap_singleton, drop_succ_of_cons h]

theorem stops_oneOrMore_of_takeWhile_eq_nil {p : Char → Bool}
    (h : (source.drop i).takeWhile p = []) : (Regex.oneOrMore p).stops source i = [] := by
  have hany : (source.drop i).head?.any p = false := by
    cases htext : source.drop i with
    | nil => rfl
    | cons c text =>
      rw [htext, List.takeWhile_cons] at h
      split at h
      · simp at h
      · next hc => simpa using hc
  simp only [Regex.oneOrMore, Regex.stops, hany, Bool.false_eq_true, if_false, List.flatMap_nil]

/-- At least one character of a class, and then `r`. -/
theorem stops_seq_oneOrMore_cons {c : Char} {text : List Char}
    (h : source.drop i = c :: text) (hc : p c) (r : Regex) :
    (Regex.seq (.oneOrMore p) r).stops source i =
      (longestFirst p (i + 1) text).flatMap (r.stops source) := by
  simp only [Regex.oneOrMore, Regex.stops, h, List.head?_cons, Option.any_some, hc, if_true,
    List.flatMap_singleton, drop_succ_of_cons h]

theorem mem_stops_oneOrMore :
    j ∈ (Regex.oneOrMore p).stops source i ↔
      ∃ run rest, source.drop i = run ++ rest ∧ j = i + run.length ∧ run ≠ [] ∧
        ∀ c ∈ run, p c := by
  constructor
  · intro h
    cases hrun : (source.drop i).takeWhile p with
    | nil => simp [stops_oneOrMore_of_takeWhile_eq_nil hrun] at h
    | cons c _ =>
      cases htext : source.drop i with
      | nil => simp [htext] at hrun
      | cons d text =>
        have hd : p d := by
          by_cases hd : p d
          · exact hd
          · simp [htext, hd] at hrun
        rw [stops_oneOrMore_cons htext hd] at h
        obtain ⟨run, hrun, rfl, hp⟩ := spells_of_mem_longestFirst (drop_succ_of_cons htext) h
        refine ⟨d :: run, source.drop (i + 1 + run.length), ?_, ?_, by simp, by simpa [hd] using hp⟩
        · rw [List.cons_append, ← hrun, drop_succ_of_cons htext]
        · simp only [List.length_cons]
          omega
  · rintro ⟨run, rest, htext, rfl, hne, hp⟩
    cases run with
    | nil => exact absurd rfl hne
    | cons c run =>
      obtain ⟨hc, hp⟩ := List.forall_mem_cons.mp hp
      rw [stops_oneOrMore_cons htext hc, List.length_cons,
        show i + (run.length + 1) = i + 1 + run.length by omega]
      exact mem_longestFirst hp (i + 1) rest

theorem mem_stops_oneOrMore_iff_spells :
    j ∈ (Regex.oneOrMore p).stops source i ↔ i < j ∧ Spells source p i j := by
  rw [mem_stops_oneOrMore]
  constructor
  · rintro ⟨run, rest, htext, rfl, hne, hp⟩
    have hpos := List.length_pos_iff.mpr hne
    exact ⟨by omega, .of_append htext hp⟩
  · rintro ⟨hlt, run, htext, rfl, hp⟩
    exact ⟨run, _, htext, rfl, by rintro rfl; simp at hlt, hp⟩

/-- A run may also end behind a piece of text that follows it, if that is of the same class. -/
theorem mem_stops_oneOrMore_add {piece rest : List Char}
    (hj : j ∈ (Regex.oneOrMore p).stops source i) (hpiece : source.drop j = piece ++ rest) :
    j + piece.length ∈ (Regex.oneOrMore p).stops source i ↔ ∀ c ∈ piece, p c := by
  rw [mem_stops_oneOrMore_iff_spells] at hj ⊢
  rw [← Spells.iff_of_append hpiece]
  constructor
  · rintro ⟨-, hspells⟩
    exact hspells.of_le hj.2.le (by omega)
  · intro hspells
    exact ⟨by omega, hj.2.trans hspells⟩

/-! ### Longer matches before shorter ones -/

theorem pairwise_stops_oneOrMore (source : List Char) (p : Char → Bool) (i : Nat) :
    ((Regex.oneOrMore p).stops source i).Pairwise (· > ·) := by
  simp only [Regex.oneOrMore, Regex.stops]
  split
  · rw [List.flatMap_singleton]
    exact pairwise_longestFirst _ _ _
  · exact .nil

/-- A mark before an expression leaves its matches in their order. -/
theorem pairwise_stops_literal_seq {r : Regex}
    (h : ∀ i, (r.stops source i).Pairwise (· > ·)) (mark : List Char) (i : Nat) :
    ((Regex.seq (.literal mark) r).stops source i).Pairwise (· > ·) := by
  simp only [Regex.stops]
  split
  · rw [List.flatMap_singleton]
    exact h _
  · exact .nil

/-- A mark behind an expression leaves out some of its matches and the others in their order. -/
theorem pairwise_stops_seq_literal {r : Regex} (h : (r.stops source i).Pairwise (· > ·))
    (mark : List Char) : ((Regex.seq r (.literal mark)).stops source i).Pairwise (· > ·) := by
  rw [Regex.stops, List.pairwise_flatMap]
  refine ⟨fun j _ => ?_, h.imp fun hlt x hx y hy => ?_⟩
  · rw [Regex.stops]
    split
    · exact List.pairwise_singleton _ _
    · exact .nil
  · rw [mem_stops_literal] at hx hy
    omega

/-! ### Ways to match, part by part -/

section Groupings

variable {parts : List Regex} {groups : List (List Char)}

theorem mem_groupings_literal_cons {mark : List Char} :
    groups ∈ Regex.groupings source (.literal mark :: parts) i ↔
      ∃ rest later, source.drop i = mark ++ rest ∧
        later ∈ Regex.groupings source parts (i + mark.length) ∧ groups = mark :: later := by
  rw [Regex.groupings, List.mem_flatMap]
  constructor
  · rintro ⟨j, hj, hgroups⟩
    obtain ⟨⟨rest, hrest⟩, rfl⟩ := mem_stops_literal.mp hj
    obtain ⟨later, hlater, rfl⟩ := List.mem_map.mp hgroups
    exact ⟨rest, later, hrest, hlater, by rw [Nat.add_sub_cancel_left, hrest, List.take_left]⟩
  · rintro ⟨rest, later, hrest, hlater, rfl⟩
    refine ⟨_, mem_stops_literal.mpr ⟨⟨rest, hrest⟩, rfl⟩, List.mem_map.mpr ⟨later, hlater, ?_⟩⟩
    rw [Nat.add_sub_cancel_left, hrest, List.take_left]

theorem mem_groupings_oneOrMore_cons :
    groups ∈ Regex.groupings source (.oneOrMore p :: parts) i ↔
      ∃ run rest later, source.drop i = run ++ rest ∧ run ≠ [] ∧ (∀ c ∈ run, p c) ∧
        later ∈ Regex.groupings source parts (i + run.length) ∧ groups = run :: later := by
  rw [Regex.groupings, List.mem_flatMap]
  constructor
  · rintro ⟨j, hj, hgroups⟩
    obtain ⟨run, rest, hrun, rfl, hne, hp⟩ := mem_stops_oneOrMore.mp hj
    obtain ⟨later, hlater, rfl⟩ := List.mem_map.mp hgroups
    refine ⟨run, rest, later, hrun, hne, hp, hlater, ?_⟩
    rw [Nat.add_sub_cancel_left, hrun, List.take_left]
  · rintro ⟨run, rest, later, hrun, hne, hp, hlater, rfl⟩
    refine ⟨_, mem_stops_oneOrMore.mpr ⟨run, rest, hrun, rfl, hne, hp⟩,
      List.mem_map.mpr ⟨later, hlater, ?_⟩⟩
    rw [Nat.add_sub_cancel_left, hrun, List.take_left]

/-- Parts match one after the other if the first one does and the others match where it ends. -/
theorem groupings_cons_ne_nil {part : Regex} :
    Regex.groupings source (part :: parts) i ≠ [] ↔
      ∃ j ∈ part.stops source i, Regex.groupings source parts j ≠ [] := by
  simp [Regex.groupings, List.flatMap_eq_nil_iff]

end Groupings

/-! ### Borders of words -/

/-- The character before a place where a piece of text ends. -/
private theorem getLast?_take_add {piece rest : List Char} (h : source.drop i = piece ++ rest)
    (hne : piece ≠ []) : (source.take (i + piece.length)).getLast? = piece.getLast? := by
  rw [List.take_add, h, List.take_left, List.getLast?_append]
  cases hlast : piece.getLast? with
  | none => exact absurd (List.getLast?_eq_none_iff.mp hlast) hne
  | some c => rfl

/-- After a word character the border of a word is where no word character follows. -/
theorem stops_wordBorder {piece rest : List Char} (h : source.drop i = piece ++ rest)
    (hlast : piece.getLast?.any isWord) :
    Regex.wordBorder.stops source (i + piece.length) =
      if rest.head?.any isWord then [] else [i + piece.length] := by
  have hne : piece ≠ [] := by
    rintro rfl
    simp at hlast
  rw [Regex.stops, getLast?_take_add h hne, drop_add_length h, hlast]
  cases rest.head?.any isWord <;> rfl

theorem eq_of_mem_stops_wordBorder (h : j ∈ Regex.wordBorder.stops source i) : j = i := by
  rw [Regex.stops] at h
  split at h
  · exact List.mem_singleton.mp h
  · simp at h

/-! ### A run and a mark behind it -/

/-- A mark of word characters that stands before a text stands before its run of word
characters. -/
theorem after?_takeWhile {mark : List Char} (hmark : ∀ c ∈ mark, p c)
    (text : List Char) :
    (after? mark (text.takeWhile p)).isSome = (after? mark text).isSome := by
  rw [Bool.eq_iff_iff, Option.isSome_iff_exists, Option.isSome_iff_exists]
  simp only [after?_eq_some_iff]
  constructor
  · rintro ⟨rest, hrest⟩
    refine ⟨rest ++ text.dropWhile p, ?_⟩
    rw [← List.append_assoc, ← hrest, List.takeWhile_append_dropWhile]
  · rintro ⟨rest, rfl⟩
    exact ⟨rest.takeWhile p, List.takeWhile_append_of_pos hmark⟩

/-- A mark that cannot begin inside a run stands nowhere but behind it. The run begins at `i`, and
`piece` is what has been read of it. -/
private theorem flatMap_longestFirst_literal {d : Char} {mark : List Char} (hd : p d = false)
    {piece text : List Char} (hpiece : source.drop i = piece ++ text) (hj : j = i + piece.length) :
    ((longestFirst p j text).flatMap fun k =>
        (Regex.groupings source [.literal (d :: mark)] k).map fun groups =>
          (source.drop i).take (k - i) :: groups) =
      if (d :: mark).isPrefixOf (text.dropWhile p) then
        [[piece ++ text.takeWhile p, d :: mark]]
      else [] := by
  -- what is found if the run ends where it has been read to
  have hhere : ∀ {j : Nat} {piece text : List Char}, source.drop i = piece ++ text →
      j = i + piece.length →
      ((Regex.groupings source [.literal (d :: mark)] j).map fun groups =>
        (source.drop i).take (j - i) :: groups) =
      if (d :: mark).isPrefixOf text then [[piece, d :: mark]] else [] := by
    intro j piece text hpiece hj
    rw [groupings_literal, hj, drop_add_length hpiece, hpiece, Nat.add_sub_cancel_left,
      List.take_left]
    split <;> rfl
  induction text generalizing j piece with
  | nil =>
    rw [longestFirst, List.flatMap_singleton, hhere hpiece hj]
    rfl
  | cons c text ih =>
    cases hc : p c with
    | false =>
      have hnot : ¬ p c := by simp [hc]
      rw [longestFirst, if_neg hnot, List.flatMap_singleton, hhere hpiece hj,
        List.dropWhile_cons_of_neg hnot, List.takeWhile_cons_of_neg hnot, List.append_nil]
    | true =>
      have hne : (d :: mark).isPrefixOf (c :: text) = false := by
        have hdc : d ≠ c := by
          rintro rfl
          simp [hd] at hc
        simp [List.isPrefixOf, hdc]
      have hnext : source.drop i = (piece ++ [c]) ++ text := by
        rw [hpiece, List.append_assoc, List.singleton_append]
      have hlength : j + 1 = i + (piece ++ [c]).length := by
        rw [hj, List.length_append, List.length_singleton, Nat.add_assoc]
      rw [longestFirst, if_pos hc, List.flatMap_append, List.flatMap_singleton, ih hnext hlength,
        hhere hpiece hj, hne, List.dropWhile_cons_of_pos hc, List.takeWhile_cons_of_pos hc,
        List.append_assoc, List.singleton_append]
      simp

theorem groupings_most_literal {d : Char} {mark : List Char} (hd : p d = false) :
    Regex.groupings source [.most p, .literal (d :: mark)] i =
      if (d :: mark).isPrefixOf ((source.drop i).dropWhile p) then
        [[(source.drop i).takeWhile p, d :: mark]]
      else [] := by
  rw [Regex.groupings, Regex.stops]
  exact flatMap_longestFirst_literal hd (List.nil_append (source.drop i)).symm rfl

theorem groupings_oneOrMore_literal {d : Char} {mark : List Char} (hd : p d = false) :
    Regex.groupings source [.oneOrMore p, .literal (d :: mark)] i =
      if (source.drop i).takeWhile p ≠ [] ∧
          (d :: mark).isPrefixOf ((source.drop i).dropWhile p) then
        [[(source.drop i).takeWhile p, d :: mark]]
      else [] := by
  rw [Regex.groupings]
  by_cases hrun : (source.drop i).takeWhile p = []
  · rw [stops_oneOrMore_of_takeWhile_eq_nil hrun, List.flatMap_nil, if_neg (by simp [hrun])]
  · cases htext : source.drop i with
    | nil => simp [htext] at hrun
    | cons c text =>
      have hc : p c := by
        by_cases hc : p c
        · exact hc
        · simp [htext, hc] at hrun
      have hpiece : source.drop i = [c] ++ text := htext
      have hlength : i + 1 = i + [c].length := rfl
      rw [stops_oneOrMore_cons htext hc, List.dropWhile_cons_of_pos hc,
        List.takeWhile_cons_of_pos hc, ← htext, flatMap_longestFirst_literal hd hpiece hlength]
      simp

/-- A run that is as short as possible ends where the mark stands first. The run begins at `i`,
and `piece` is what has been read of it. -/
private theorem head?_flatMap_shortestFirst_literal {mark : List Char} {piece text : List Char}
    (hpiece : source.drop i = piece ++ text) (hj : j = i + piece.length) :
    ((shortestFirst (fun _ => true) j text).flatMap fun k =>
        (Regex.groupings source [.literal mark] k).map fun groups =>
          (source.drop i).take (k - i) :: groups).head? =
      (splitFirst? mark text).map fun cut => [piece ++ cut.1, mark] := by
  have hhere : ∀ {j : Nat} {piece text : List Char}, source.drop i = piece ++ text →
      j = i + piece.length →
      ((Regex.groupings source [.literal mark] j).map fun groups =>
        (source.drop i).take (j - i) :: groups).head? =
      (after? mark text).map fun _ => [piece, mark] := by
    intro j piece text hpiece hj
    rw [groupings_literal, hj, drop_add_length hpiece, hpiece, Nat.add_sub_cancel_left,
      List.take_left, after?]
    split <;> rfl
  induction text generalizing j piece with
  | nil =>
    rw [shortestFirst, List.flatMap_singleton, hhere hpiece hj, splitFirst?, Option.map_map]
    congr 1
    funext rest
    simp
  | cons c text ih =>
    have hnext : source.drop i = (piece ++ [c]) ++ text := by
      rw [hpiece, List.append_assoc, List.singleton_append]
    have hlength : j + 1 = i + (piece ++ [c]).length := by
      rw [hj, List.length_append, List.length_singleton, Nat.add_assoc]
    rw [shortestFirst, if_pos rfl, List.flatMap_cons, List.head?_append, hhere hpiece hj,
      ih hnext hlength, splitFirst?]
    cases after? mark (c :: text) with
    | none => simp [Function.comp_def]
    | some rest => simp

theorem head?_groupings_fewest_literal {mark : List Char} :
    (Regex.groupings source [.fewest fun _ => true, .literal mark] i).head? =
      (splitFirst? mark (source.drop i)).map fun cut => [cut.1, mark] := by
  rw [Regex.groupings, Regex.stops]
  exact head?_flatMap_shortestFirst_literal (List.nil_append (source.drop i)).symm rfl

end TemplateLint.Text
