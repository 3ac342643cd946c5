/-!
# Sets of code points

A property of characters that a standard fixes by enumeration is kept as a table: closed
intervals of code points in increasing order, no two of which meet. `CodePoints.covers` looks a
number up and stops at the first interval that begins after it, and `covers_iff` says that on an
increasing table this early stop loses nothing.
-/

namespace TemplateLint.Text

/-- Closed intervals of code points, each given by its first and last member. -/
abbrev CodePoints := List (Nat × Nat)

namespace CodePoints

/-- Whether `n` lies in one of the intervals, looking no further than the first interval that
begins after `n`. -/
def covers : CodePoints → Nat → Bool
  | [], _ => false
  | (first, last) :: later, n => decide (first ≤ n) && (decide (n ≤ last) || covers later n)

/-- Every interval is nonempty and begins after the one before it has ended, the first one at
`floor` or later. -/
def increasing (floor : Nat) : CodePoints → Bool
  | [] => true
  | (first, last) :: later =>
    decide (floor ≤ first) && decide (first ≤ last) && increasing (last + 1) later

private theorem floor_le_of_increasing {floor : Nat} {table : CodePoints}
    (h : increasing floor table)
    {interval : Nat × Nat} (hmem : interval ∈ table) : floor ≤ interval.1 := by
  induction table generalizing floor with
  | nil => simp at hmem
  | cons head later ih =>
    simp only [increasing, Bool.and_eq_true, decide_eq_true_eq] at h
    obtain ⟨⟨hfloor, hle⟩, hlater⟩ := h
    rcases List.mem_cons.mp hmem with rfl | hmem
    · exact hfloor
    · have := ih hlater hmem
      omega

/-- On an increasing table the look-up finds exactly the members of the intervals. -/
theorem covers_iff {floor : Nat} {table : CodePoints} (h : increasing floor table) {n : Nat} :
    covers table n ↔ ∃ interval ∈ table, interval.1 ≤ n ∧ n ≤ interval.2 := by
  induction table generalizing floor with
  | nil => simp [covers]
  | cons head later ih =>
    have hall := h
    simp only [increasing, Bool.and_eq_true, decide_eq_true_eq] at h
    obtain ⟨⟨-, hle⟩, hlater⟩ := h
    simp only [covers, Bool.and_eq_true, Bool.or_eq_true, decide_eq_true_eq, ih hlater,
      List.mem_cons, exists_eq_or_imp]
    constructor
    · rintro ⟨hfirst, hlast | hmem⟩
      · exact Or.inl ⟨hfirst, hlast⟩
      · exact Or.inr hmem
    · rintro (⟨hfirst, hlast⟩ | ⟨interval, hmem, hlow, hhigh⟩)
      · exact ⟨hfirst, Or.inl hlast⟩
      · have := floor_le_of_increasing hlater hmem
        exact ⟨by omega, Or.inr ⟨interval, hmem, hlow, hhigh⟩⟩

end CodePoints

end TemplateLint.Text
