import TemplateLint.Markup.Head
import TemplateLint.Proofs.RegexParts

/-!
# The heads as regular expressions

`Head.regex` writes down each of the six heads as a regular expression, and `Head.head?_stops`
says that the recogniser of a head finds exactly the preferred match of its expression. Five of
the recognisers never look back, so the content of the theorem is that backtracking would not find
anything better: a run of word characters that is taken whole, a hash that is taken if it is there.
The form head does need it, since the name it looks for may end inside the run; there the last
place of the ending is the preferred one.

Two more facts carry the scans built on heads. No head holds a closing brace, and for the heads
whose matches are all of one length, or end where a word ends, no match lies inside another
(`Head.eq_of_mem_stops`).
-/

namespace TemplateLint.Markup

open TemplateLint.Text

/-- How each head is written as a regular expression. -/
def Head.regex : Head → Regex
  | .openTag => .seq (.literal ['{', '{', '#']) (.oneOrMore isWord)
  | .expression => .literal ['{', '{']
  | .rawOutput => .literal ['{', '{', '{']
  | .form =>
    .seq (.literal ['{', '{']) (.seq (.optional (.literal ['#']))
      (.seq (.oneOrMore isWord) (.literal formEnding)))
  | .wholeForm =>
    .seq (.literal ['{', '{']) (.seq (.optional (.literal ['#']))
      (.seq (.oneOrMore isWord) (.seq (.literal formEnding) .wordBorder)))
  | .loop => .seq (.literal ['{', '{', '#', 'f', 'o', 'r']) .wordBorder

/-! ### The recognisers find the preferred match -/

section Recognisers

variable {source : List Char} {i : Nat}

/-- A mark and then a recogniser that finds the preferred match of `r`. -/
theorem head?_stops_marked {mark : List Char} {inner : List Char → Option (List Char × List Char)}
    (hinner : ∀ {text piece rest}, inner text = some (piece, rest) → text = piece ++ rest)
    (hmark : mark ≠ []) {r : Regex}
    (hr : ∀ tail, source.drop i = mark ++ tail →
      (r.stops source (i + mark.length)).head? =
        (inner tail).map fun cut => i + mark.length + cut.1.length) :
    ((Regex.seq (.literal mark) r).stops source i).head? =
      ((Pattern.marked mark inner hinner hmark).split? (source.drop i)).map
        fun cut => i + cut.1.length := by
  cases hafter : after? mark (source.drop i) with
  | none =>
    rw [stops_seq_literal_of_after?_eq_none hafter]
    simp [Pattern.marked, hafter]
  | some tail =>
    have htail := after?_eq_some_iff.mp hafter
    rw [stops_seq_literal htail, hr tail htail]
    cases hpiece : inner tail with
    | none => simp [Pattern.marked, hafter, hpiece]
    | some cut => simp [Pattern.marked, hafter, hpiece, Nat.add_assoc]

theorem head?_stops_literal {mark : List Char} (hmark : mark ≠ []) :
    ((Regex.literal mark).stops source i).head? =
      ((Pattern.literal mark hmark).split? (source.drop i)).map fun cut => i + cut.1.length := by
  cases hafter : after? mark (source.drop i) with
  | none => simp [Pattern.literal, hafter, stops_literal_of_after?_eq_none hafter]
  | some tail =>
    rw [stops_literal_of_append (after?_eq_some_iff.mp hafter)]
    simp [Pattern.literal, hafter]

theorem head?_stops_name :
    ((Regex.oneOrMore isWord).stops source i).head? =
      (splitName? (source.drop i)).map fun cut => i + cut.1.length := by
  cases hname : (source.drop i).takeWhile isWord with
  | nil =>
    rw [stops_oneOrMore_of_takeWhile_eq_nil hname]
    simp [splitName?, hname]
  | cons c name =>
    cases htext : source.drop i with
    | nil => simp [htext] at hname
    | cons d text =>
      rw [htext, List.takeWhile_cons] at hname
      split at hname
      · next hd =>
        rw [stops_oneOrMore_cons htext hd, head?_longestFirst]
        simp [splitName?, hd]
        omega
      · simp at hname

/-- The last ending inside the run of word characters is the preferred one: the recursion of
`splitLast?` is the backtracking itself. -/
private theorem head?_stops_lastMark {mark : List Char} (hmark : ∀ c ∈ mark, isWord c)
    {text : List Char} (htext : source.drop i = text) :
    ((longestFirst isWord i text).flatMap ((Regex.literal mark).stops source)).head? =
      (splitLast? mark (text.takeWhile isWord)).map
        fun cut => i + cut.1.length + mark.length := by
  -- at a fixed place the mark is found in the text if it is found in the run
  have hhere : ∀ {i : Nat} {text : List Char}, source.drop i = text →
      ((Regex.literal mark).stops source i).head? =
        ((after? mark (text.takeWhile isWord)).map (([] : List Char), ·)).map
          fun cut => i + cut.1.length + mark.length := by
    intro i text htext
    have hsame := after?_takeWhile hmark text
    cases hafter : after? mark text with
    | none =>
      rw [hafter, Option.isSome_none, Option.isSome_eq_false_iff,
        Option.isNone_iff_eq_none] at hsame
      rw [stops_literal_of_after?_eq_none (htext ▸ hafter), hsame]
      rfl
    | some rest =>
      rw [hafter, Option.isSome_some] at hsame
      obtain ⟨tail, htail⟩ := Option.isSome_iff_exists.mp hsame
      rw [stops_literal_of_append (htext.trans (after?_eq_some_iff.mp hafter)), htail]
      rfl
  induction text generalizing i with
  | nil =>
    rw [longestFirst, List.flatMap_singleton, hhere htext, List.takeWhile_nil, splitLast?]
  | cons c text ih =>
    cases hc : isWord c with
    | false =>
      rw [longestFirst, if_neg (by simp [hc]), List.flatMap_singleton, hhere htext,
        List.takeWhile_cons_of_neg (by simp [hc]), splitLast?]
    | true =>
      rw [longestFirst, if_pos hc, List.flatMap_append, List.flatMap_singleton, List.head?_append,
        ih (drop_succ_of_cons htext), hhere htext, List.takeWhile_cons_of_pos hc, splitLast?]
      cases splitLast? mark (text.takeWhile isWord) with
      | none => rfl
      | some cut =>
        simp only [Option.map_some, Option.some_or, List.length_cons, Option.some.injEq]
        omega

private theorem head?_stops_formStem :
    ((Regex.seq (.oneOrMore isWord) (.literal formEnding)).stops source i).head? =
      (splitFormStem? (source.drop i)).map fun cut => i + cut.1.length := by
  have hending : ∀ c ∈ formEnding, isWord c := List.all_eq_true.mp rfl
  cases hname : (source.drop i).takeWhile isWord with
  | nil =>
    rw [Regex.stops, stops_oneOrMore_of_takeWhile_eq_nil hname]
    simp [splitFormStem?, hname]
  | cons c name =>
    cases htext : source.drop i with
    | nil => simp [htext] at hname
    | cons d text =>
      rw [htext, List.takeWhile_cons] at hname
      split at hname
      · next hd =>
        obtain ⟨rfl, rfl⟩ := List.cons.inj hname
        rw [stops_seq_oneOrMore_cons htext hd,
          head?_stops_lastMark hending (drop_succ_of_cons htext), splitFormStem?,
          List.takeWhile_cons_of_pos hd]
        simp only [Option.map_map]
        congr 1
        funext cut
        simp
        omega
      · simp at hname

/-- With the border of a word behind it, the ending has to end the run of word characters. -/
theorem mem_stops_formName {j : Nat} :
    j ∈ (Regex.seq (.oneOrMore isWord) (.seq (.literal formEnding) .wordBorder)).stops source i ↔
      isFormName ((source.drop i).takeWhile isWord) ∧
        j = i + ((source.drop i).takeWhile isWord).length := by
  have hending : ∀ c ∈ formEnding, isWord c := List.all_eq_true.mp rfl
  rw [Regex.stops, List.mem_flatMap, isFormName, Bool.and_eq_true, decide_eq_true_eq,
    List.isSuffixOf_iff_suffix]
  constructor
  · rintro ⟨k, hk, hj⟩
    obtain ⟨stem, tail, hstem, rfl, hne, hword⟩ := mem_stops_oneOrMore.mp hk
    cases hafter : after? formEnding (source.drop (i + stem.length)) with
    | none => simp [stops_seq_literal_of_after?_eq_none hafter] at hj
    | some rest =>
      have hrest := after?_eq_some_iff.mp hafter
      rw [stops_seq_literal hrest, stops_wordBorder hrest (by decide)] at hj
      split at hj
      · simp at hj
      · next hborder =>
        have hrun : (source.drop i).takeWhile isWord = stem ++ formEnding := by
          rw [hstem, ← drop_add_length hstem, hrest, ← List.append_assoc]
          refine takeWhile_append_of_head? (fun c hc => ?_) (by simpa using hborder)
          exact (List.mem_append.mp hc).elim (hword c) (hending c)
        have hpos := List.length_pos_iff.mpr hne
        rw [hrun, List.length_append, ← Nat.add_assoc]
        exact ⟨⟨⟨stem, rfl⟩, by omega⟩, List.mem_singleton.mp hj⟩
  · rintro ⟨⟨⟨stem, hrun⟩, hlength⟩, rfl⟩
    have hne : stem ≠ [] := by
      rintro rfl
      rw [← hrun] at hlength
      simp at hlength
    have htext : source.drop i = stem ++ (formEnding ++ (source.drop i).dropWhile isWord) := by
      rw [← List.append_assoc, hrun, List.takeWhile_append_dropWhile]
    have hword : ∀ c ∈ stem, isWord c := by
      intro c hc
      have hmem : c ∈ (source.drop i).takeWhile isWord := hrun ▸ List.mem_append_left _ hc
      exact List.all_eq_true.mp List.all_takeWhile c hmem
    refine ⟨i + stem.length, mem_stops_oneOrMore.mpr ⟨stem, _, htext, rfl, hne, hword⟩, ?_⟩
    rw [stops_seq_literal (drop_add_length htext),
      stops_wordBorder (drop_add_length htext) (by decide),
      if_neg (by simp [head?_any_dropWhile]), ← hrun, List.length_append, ← Nat.add_assoc]
    exact List.mem_singleton_self _

/-- The first of several offsets that are all the same. -/
private theorem head?_eq_of_forall_mem {offsets : List Nat} {j : Nat} (hmem : j ∈ offsets)
    (hall : ∀ k ∈ offsets, k = j) : offsets.head? = some j := by
  cases offsets with
  | nil => simp at hmem
  | cons k offsets => rw [List.head?_cons, hall k List.mem_cons_self]

private theorem head?_stops_formName :
    ((Regex.seq (.oneOrMore isWord) (.seq (.literal formEnding) .wordBorder)).stops source
        i).head? =
      (splitFormName? (source.drop i)).map fun cut => i + cut.1.length := by
  cases hform : isFormName ((source.drop i).takeWhile isWord) with
  | false =>
    have hnil : (Regex.seq (.oneOrMore isWord) (.seq (.literal formEnding) .wordBorder)).stops
        source i = [] := List.eq_nil_iff_forall_not_mem.mpr fun j hj => by
      simp [mem_stops_formName, hform] at hj
    rw [hnil, splitFormName?, splitName?]
    split
    · rfl
    · next c name hname =>
      rw [hname] at hform
      simp [Option.filter, hform]
  | true =>
    rw [head?_eq_of_forall_mem (mem_stops_formName.mpr ⟨hform, rfl⟩)
      fun k hk => (mem_stops_formName.mp hk).2, splitFormName?, splitName?]
    split
    · next hname => simp [hname, isFormName] at hform
    · next c name hname =>
      rw [hname] at hform
      simp [Option.filter, hname, hform]

/-- A hash that is there is taken, since `r` does not match at a hash. -/
private theorem stops_seq_optional_of_hash {tail : List Char} (h : source.drop i = '#' :: tail)
    {r : Regex} (hr : r.stops source i = []) :
    (Regex.seq (.optional (.literal ['#'])) r).stops source i = r.stops source (i + 1) := by
  have hmark : source.drop i = ['#'] ++ tail := h
  rw [Regex.stops, Regex.stops, List.flatMap_append, stops_literal_of_append hmark,
    List.flatMap_singleton, List.flatMap_singleton, hr, List.append_nil]
  rfl

/-- A hash that is not there is left out. -/
private theorem stops_seq_optional_of_not_hash (h : ∀ tail, source.drop i ≠ '#' :: tail)
    (r : Regex) :
    (Regex.seq (.optional (.literal ['#'])) r).stops source i = r.stops source i := by
  have hafter : after? ['#'] (source.drop i) = none := by
    cases hafter : after? ['#'] (source.drop i) with
    | none => rfl
    | some tail => exact absurd (after?_eq_some_iff.mp hafter) (h tail)
  rw [Regex.stops, Regex.stops, List.flatMap_append, stops_literal_of_after?_eq_none hafter,
    List.flatMap_nil, List.nil_append, List.flatMap_singleton]

/-- A hash that may be left out and then a recogniser that never begins at a hash. -/
private theorem head?_stops_skipHash {inner : List Char → Option (List Char × List Char)}
    {r : Regex}
    (hr : ∀ j, (r.stops source j).head? = (inner (source.drop j)).map fun cut => j + cut.1.length)
    (hhash : ∀ tail, source.drop i = '#' :: tail → r.stops source i = []) :
    ((Regex.seq (.optional (.literal ['#'])) r).stops source i).head? =
      (skipHash inner (source.drop i)).map fun cut => i + cut.1.length := by
  by_cases h : ∃ tail, source.drop i = '#' :: tail
  · obtain ⟨tail, htail⟩ := h
    rw [stops_seq_optional_of_hash htail (hhash tail htail), hr, drop_succ_of_cons htail, htail,
      skipHash]
    cases inner tail with
    | none => rfl
    | some cut =>
      simp only [Option.map_some, List.length_cons, Option.some.injEq]
      omega
  · have hnot : ∀ tail, source.drop i ≠ '#' :: tail := fun tail htail => h ⟨tail, htail⟩
    rw [stops_seq_optional_of_not_hash hnot, hr, skipHash]
    exact hnot

/-- A name does not begin at a hash. -/
private theorem stops_seq_oneOrMore_of_hash {tail : List Char} (h : source.drop i = '#' :: tail)
    (r : Regex) : (Regex.seq (.oneOrMore isWord) r).stops source i = [] := by
  have hnil : (source.drop i).takeWhile isWord = [] := by
    rw [h]
    exact List.takeWhile_cons_of_neg (by simp)
  rw [Regex.stops, stops_oneOrMore_of_takeWhile_eq_nil hnil, List.flatMap_nil]

/-- **The recogniser of a head finds its preferred match**, and finds none only where there is
none. -/
theorem Head.head?_stops (head : Head) (source : List Char) (i : Nat) :
    (head.regex.stops source i).head? =
      (head.pattern.split? (source.drop i)).map fun cut => i + cut.1.length := by
  cases head with
  | openTag =>
    refine head?_stops_marked append_of_splitName? (by decide) fun tail htail => ?_
    rw [head?_stops_name, drop_add_length htail]
  | expression => exact head?_stops_literal (by decide)
  | rawOutput => exact head?_stops_literal (by decide)
  | form =>
    refine head?_stops_marked (append_of_skipHash append_of_splitFormStem?) (by decide)
      fun tail htail => ?_
    rw [head?_stops_skipHash (fun j => head?_stops_formStem)
      (fun _ hhash => stops_seq_oneOrMore_of_hash hhash _), drop_add_length htail]
  | wholeForm =>
    refine head?_stops_marked (append_of_skipHash append_of_splitFormName?) (by decide)
      fun tail htail => ?_
    rw [head?_stops_skipHash (fun j => head?_stops_formName)
      (fun _ hhash => stops_seq_oneOrMore_of_hash hhash _), drop_add_length htail]
  | loop =>
    refine head?_stops_marked append_of_wordEnd? (by decide) fun tail htail => ?_
    rw [stops_wordBorder htail (by decide), wordEnd?]
    split <;> rfl

end Recognisers

/-! ### Where matches of a head can lie -/

/-- What a recogniser takes is one of the ways to match. -/
theorem Head.mem_stops_of_split? {head : Head} {source matched rest : List Char} {i : Nat}
    (h : head.pattern.split? (source.drop i) = some (matched, rest)) :
    i + matched.length ∈ head.regex.stops source i := by
  refine List.mem_of_head? ?_
  rw [head.head?_stops, h, Option.map_some]

/-- Where there is a way to match, a recogniser takes one. -/
theorem Head.isSome_split?_of_mem_stops {head : Head} {source : List Char} {i j : Nat}
    (h : j ∈ head.regex.stops source i) : (head.pattern.split? (source.drop i)).isSome := by
  rw [← Option.isSome_map, ← head.head?_stops, List.isSome_head?]
  exact List.ne_nil_of_mem h

/-- What a head matches holds only characters that its expression admits. -/
theorem Head.admits_of_split? {head : Head} {text matched rest : List Char}
    (h : head.pattern.split? text = some (matched, rest)) : ∀ c ∈ matched, head.regex.admits c := by
  have hstop : 0 + matched.length ∈ head.regex.stops text 0 := mem_stops_of_split? h
  obtain ⟨piece, hpiece, hlength, hadmits⟩ := Regex.spells_of_mem_stops hstop
  have happend : matched ++ rest = piece ++ text.drop (0 + matched.length) := by
    rw [head.pattern.append_eq h, ← hpiece, List.drop_zero]
  rw [(List.append_inj happend (by omega)).1]
  exact hadmits

/-- No head holds a closing brace. -/
theorem Head.admits_closeBrace (head : Head) : head.regex.admits '}' = false := by
  cases head <;> decide

section Places

variable {source : List Char} {i j k : Nat}

/-- A name is looked for behind a hash, or where there is none. -/
theorem exists_stops_skipHash (source : List Char) (i : Nat) (r : Regex) :
    ∃ k, (Regex.seq (.optional (.literal ['#'])) (.seq (.oneOrMore isWord) r)).stops source i =
      (Regex.seq (.oneOrMore isWord) r).stops source k := by
  by_cases h : ∃ tail, source.drop i = '#' :: tail
  · obtain ⟨tail, htail⟩ := h
    exact ⟨i + 1, stops_seq_optional_of_hash htail (stops_seq_oneOrMore_of_hash htail r)⟩
  · exact ⟨i, stops_seq_optional_of_not_hash (fun tail htail => h ⟨tail, htail⟩) _⟩

/-- A form name that ends where its word ends can end in one place only. -/
private theorem stop_unique_of_wholeForm (hj : j ∈ Head.wholeForm.regex.stops source i)
    (hk : k ∈ Head.wholeForm.regex.stops source i) : j = k := by
  obtain ⟨-, hj⟩ := mem_stops_seq_literal.mp hj
  obtain ⟨-, hk⟩ := mem_stops_seq_literal.mp hk
  obtain ⟨name, hname⟩ := exists_stops_skipHash source (i + ['{', '{'].length)
    (.seq (.literal formEnding) .wordBorder)
  rw [hname, mem_stops_formName] at hj hk
  exact hj.2.trans hk.2.symm

/-- A head with a name begins with two braces and holds no brace behind them. -/
theorem Head.spells_of_named {head : Head} (hhead : head ∈ [Head.openTag, .form, .wholeForm])
    (h : j ∈ head.regex.stops source i) :
    (∃ rest, source.drop i = '{' :: '{' :: rest) ∧ Spells source (· != '{') (i + 2) j := by
  have hfree : ∀ {r : Regex} {k : Nat}, r.admits '{' = false → j ∈ r.stops source k →
      Spells source (· != '{') k j := by
    intro r k hr hk
    refine (Regex.spells_of_mem_stops hk).mono fun c hc => ?_
    rw [bne_iff_ne]
    rintro rfl
    rw [hr] at hc
    exact absurd hc (by decide)
  simp only [List.mem_cons, List.not_mem_nil, or_false] at hhead
  rcases hhead with rfl | rfl | rfl
  · obtain ⟨⟨rest, hrest⟩, hname⟩ := mem_stops_seq_literal.mp h
    have hbraces : source.drop i = ['{', '{'] ++ '#' :: rest := hrest
    have hhash : Spells source (· != '{') (i + 2) (i + 3) :=
      .of_cons (drop_add_length hbraces) (by decide)
    exact ⟨⟨_, hrest⟩, hhash.trans (hfree (by decide) hname)⟩
  · obtain ⟨⟨rest, hrest⟩, hname⟩ := mem_stops_seq_literal.mp h
    exact ⟨⟨rest, hrest⟩, hfree (by decide) hname⟩
  · obtain ⟨⟨rest, hrest⟩, hname⟩ := mem_stops_seq_literal.mp h
    exact ⟨⟨rest, hrest⟩, hfree (by decide) hname⟩

/-- No match of a head with a name begins inside another one. -/
theorem Head.start_le_of_named {head : Head} (hhead : head ∈ [Head.openTag, .form, .wholeForm])
    {m n : Nat} (h : j ∈ head.regex.stops source i) (hinner : n ∈ head.regex.stops source m)
    (hle : n ≤ j) : m ≤ i := by
  obtain ⟨-, hfree⟩ := head.spells_of_named hhead h
  obtain ⟨⟨rest, hrest⟩, hspells⟩ := head.spells_of_named hhead hinner
  have hm := hspells.le
  rcases Nat.lt_or_ge i m with hlt | hge
  · have hbrace := hfree.of_drop_eq_cons (k := m + 1) (by omega) (by omega)
      (drop_succ_of_cons hrest)
    exact absurd hbrace (by decide)
  · exact hge

/-- **No match lies inside another one**, for the heads whose matches have one length and for the
form head that ends with its word. -/
theorem Head.eq_of_mem_stops {head : Head}
    (hhead : head ∈ [Head.expression, .rawOutput, .wholeForm, .loop]) {m n : Nat}
    (h : j ∈ head.regex.stops source i) (hinner : n ∈ head.regex.stops source m) (hle : i ≤ m)
    (hle' : n ≤ j) : m = i ∧ n = j := by
  -- matches of one length: the inner one would have to be shorter
  have hfixed : ∀ d, j = i + d → n = m + d → m = i ∧ n = j := by
    intro d hj hn
    omega
  simp only [List.mem_cons, List.not_mem_nil, or_false] at hhead
  rcases hhead with rfl | rfl | rfl | rfl
  · exact hfixed _ (mem_stops_literal.mp h).2 (mem_stops_literal.mp hinner).2
  · exact hfixed _ (mem_stops_literal.mp h).2 (mem_stops_literal.mp hinner).2
  · obtain rfl : m = i := Nat.le_antisymm (Head.start_le_of_named (by decide) h hinner hle') hle
    exact ⟨rfl, stop_unique_of_wholeForm hinner h⟩
  · exact hfixed _ (eq_of_mem_stops_wordBorder (mem_stops_seq_literal.mp h).2)
      (eq_of_mem_stops_wordBorder (mem_stops_seq_literal.mp hinner).2)

end Places

end TemplateLint.Markup
