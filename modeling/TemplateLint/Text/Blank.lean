import TemplateLint.Text.CodePoints

/-!
# Blank characters and trimming

Blank characters are those with the Unicode white-space property together with the four
information separators. The zero-width space, the byte-order mark and NUL are not blank. `trim`
removes blanks at both ends of a text and nothing else (`trim_eq_iff`): so nothing is left exactly
of what is all blank (`trim_eq_nil_iff`), and trimming twice is trimming once (`trim_trim`).
-/

namespace TemplateLint.Text

/-- The blank characters. -/
def blankPoints : CodePoints :=
  [(0x9, 0xD), (0x1C, 0x20), (0x85, 0x85), (0xA0, 0xA0), (0x1680, 0x1680), (0x2000, 0x200A),
   (0x2028, 0x2029), (0x202F, 0x202F), (0x205F, 0x205F), (0x3000, 0x3000)]

/-- The table is increasing, so that looking a character up is exact. -/
theorem blankPoints_increasing : CodePoints.increasing 0 blankPoints := by decide

/-- Whether `c` is blank. -/
def isBlank (c : Char) : Bool :=
  blankPoints.covers c.toNat

/-- The text without the blanks it begins with. -/
def trimStart (text : List Char) : List Char :=
  text.dropWhile isBlank

/-- The text without the blanks it ends with. -/
def trimEnd (text : List Char) : List Char :=
  (trimStart text.reverse).reverse

/-- The text without the blanks at its two ends. -/
def trim (text : List Char) : List Char :=
  trimEnd (trimStart text)

/-! ### What trimming leaves -/

theorem trimStart_eq_iff {text kept : List Char} :
    trimStart text = kept ↔
      ∃ before, text = before ++ kept ∧ (∀ c ∈ before, isBlank c) ∧
        ∀ c ∈ kept.head?, isBlank c = false := by
  constructor
  · rintro rfl
    refine ⟨text.takeWhile isBlank, List.takeWhile_append_dropWhile.symm,
      List.all_eq_true.mp List.all_takeWhile, fun c hc => ?_⟩
    have hhead := List.head?_dropWhile_not isBlank text
    rwa [← trimStart, Option.mem_def.mp hc] at hhead
  · rintro ⟨before, rfl, hbefore, hhead⟩
    rw [trimStart, List.dropWhile_append_of_pos hbefore]
    cases kept with
    | nil => rfl
    | cons c kept => exact List.dropWhile_cons_of_neg (by simp [hhead c rfl])

theorem trimEnd_eq_iff {text kept : List Char} :
    trimEnd text = kept ↔
      ∃ after, text = kept ++ after ∧ (∀ c ∈ after, isBlank c) ∧
        ∀ c ∈ kept.getLast?, isBlank c = false := by
  rw [trimEnd, List.reverse_eq_iff, trimStart_eq_iff]
  simp only [List.head?_reverse]
  constructor
  · rintro ⟨before, htext, hbefore, hlast⟩
    refine ⟨before.reverse, ?_, fun c hc => hbefore c (List.mem_reverse.mp hc), hlast⟩
    rw [← List.reverse_reverse text, htext, List.reverse_append, List.reverse_reverse]
  · rintro ⟨after, rfl, hafter, hlast⟩
    exact ⟨after.reverse, List.reverse_append, fun c hc => hafter c (List.mem_reverse.mp hc), hlast⟩

/-- **Trimming takes blanks from both ends and nothing else**: a text is blanks, its trimmed text
and blanks, and the trimmed text neither begins nor ends with a blank. No other text stands so
between blanks. -/
theorem trim_eq_iff {text kept : List Char} :
    trim text = kept ↔
      ∃ before after, text = before ++ (kept ++ after) ∧ (∀ c ∈ before, isBlank c) ∧
        (∀ c ∈ after, isBlank c) ∧ (∀ c ∈ kept.head?, isBlank c = false) ∧
        ∀ c ∈ kept.getLast?, isBlank c = false := by
  rw [trim, trimEnd_eq_iff]
  constructor
  · rintro ⟨after, hstart, hafter, hlast⟩
    obtain ⟨before, htext, hbefore, hhead⟩ := trimStart_eq_iff.mp hstart
    refine ⟨before, after, htext, hbefore, hafter, fun c hc => hhead c ?_, hlast⟩
    rw [List.head?_append, Option.mem_def.mp hc]
    rfl
  · rintro ⟨before, after, rfl, hbefore, hafter, hhead, hlast⟩
    cases kept with
    | nil =>
      -- nothing but blanks: all of them are taken from the start
      refine ⟨[], trimStart_eq_iff.mpr ⟨before ++ after, by simp, fun c hc => ?_, by simp⟩,
        by simp, hlast⟩
      exact (List.mem_append.mp hc).elim (hbefore c) (hafter c)
    | cons c kept =>
      exact ⟨after, trimStart_eq_iff.mpr ⟨before, rfl, hbefore, hhead⟩, hafter, hlast⟩

/-- Trimming leaves nothing of a text exactly when all its characters are blank. -/
theorem trim_eq_nil_iff {text : List Char} : trim text = [] ↔ ∀ c ∈ text, isBlank c := by
  rw [trim_eq_iff]
  constructor
  · rintro ⟨before, after, rfl, hbefore, hafter, -⟩ c hc
    exact (List.mem_append.mp hc).elim (hbefore c) (hafter c)
  · intro hblank
    exact ⟨text, [], by simp, hblank, by simp, by simp, by simp⟩

theorem mem_of_mem_trim {text : List Char} {c : Char} (h : c ∈ trim text) : c ∈ text := by
  obtain ⟨before, after, htext, -⟩ := trim_eq_iff.mp (rfl : trim text = trim text)
  rw [htext]
  simp [h]

/-- Trimming twice is trimming once. -/
theorem trim_trim (text : List Char) : trim (trim text) = trim text := by
  obtain ⟨-, -, -, -, -, hhead, hlast⟩ := trim_eq_iff.mp (rfl : trim text = trim text)
  exact trim_eq_iff.mpr ⟨[], [], by simp, by simp, by simp, hhead, hlast⟩

end TemplateLint.Text
