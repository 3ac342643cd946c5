import Mathlib.Data.List.Induction
import TemplateLint.Proofs.Findings

/-!
# Braces in excess

The depth of braces is never reset, so a closing brace too many stays a debt that later opening
braces repay, and a template can have closing braces in excess and end with braces left open.
`unbalancedBraces_check_offsets` says what the rule reports in terms of counts alone: a closing
brace is in excess exactly if the text up to and with it holds more closing braces than opening
ones.

Everything follows from what one more character at the end adds (`braceDepth_concat`,
`excessClosers_concat`), by induction along the text.
-/

namespace TemplateLint

open TemplateLint.Markup TemplateLint.Text

namespace Markup

/-! ### One more character -/

theorem braceDepth_concat (text : List Char) (c : Char) :
    braceDepth (text ++ [c]) = stepDepth (braceDepth text) c := by
  rw [braceDepth, List.foldl_append, List.foldl_cons, List.foldl_nil, braceDepth]

/-- The depth is the number of opening braces less the number of closing ones. -/
theorem braceDepth_eq_sub (text : List Char) :
    braceDepth text = text.count '{' - text.count '}' := by
  induction text using List.reverseRecOn with
  | nil => rfl
  | append_singleton text c ih =>
    rw [braceDepth_concat, ih, stepDepth, List.count_append, List.count_append,
      List.count_singleton, List.count_singleton]
    grind

private theorem excessClosersFrom_append (pos : Nat) (depth : Int) (text later : List Char) :
    excessClosersFrom pos depth (text ++ later) =
      excessClosersFrom pos depth text ++
        excessClosersFrom (pos + text.length) (text.foldl stepDepth depth) later := by
  induction text generalizing pos depth with
  | nil => rfl
  | cons c text ih =>
    have hpos : pos + 1 + text.length = pos + (c :: text).length := by
      rw [List.length_cons]
      omega
    rw [List.cons_append, excessClosersFrom, excessClosersFrom, ih, hpos, List.foldl_cons]
    split <;> rfl

theorem excessClosers_concat (text : List Char) (c : Char) :
    excessClosers (text ++ [c]) = excessClosers text ++
      if c = '}' ∧ braceDepth (text ++ [c]) < 0 then [text.length] else [] := by
  rw [excessClosers, excessClosersFrom_append, excessClosers, Nat.zero_add, braceDepth_concat]
  rfl

/-! ### Offsets by counts -/

/-- A closing brace stands at an offset, and with it more braces are closed than opened. -/
def ExcessAt (source : List Char) (offset : Nat) : Prop :=
  source[offset]? = some '}' ∧
    (source.take (offset + 1)).count '{' < (source.take (offset + 1)).count '}'

instance (source : List Char) : DecidablePred (ExcessAt source) := fun _ =>
  inferInstanceAs (Decidable (_ ∧ _))

private theorem excessAt_append_iff {text later : List Char} {offset : Nat}
    (h : offset < text.length) :
    ExcessAt (text ++ later) offset ↔ ExcessAt text offset := by
  rw [ExcessAt, ExcessAt, List.getElem?_append_left h, List.take_append_of_le_length h]

private theorem excessAt_length_iff {text : List Char} {c : Char} :
    ExcessAt (text ++ [c]) text.length ↔ c = '}' ∧ braceDepth (text ++ [c]) < 0 := by
  have hwhole : (text ++ [c]).take (text.length + 1) = text ++ [c] :=
    List.take_of_length_le (by simp)
  rw [ExcessAt, List.getElem?_concat_length, Option.some.injEq, hwhole, braceDepth_eq_sub]
  refine and_congr_right fun _ => ?_
  omega

/-- The closing braces in excess are the offsets at which the counts say so, in their order. -/
theorem excessClosers_eq_filter (source : List Char) :
    excessClosers source = (List.range source.length).filter (ExcessAt source ·) := by
  induction source using List.reverseRecOn with
  | nil => rfl
  | append_singleton text c ih =>
    have hbefore : (List.range text.length).filter (ExcessAt (text ++ [c]) ·) =
        (List.range text.length).filter (ExcessAt text ·) := by
      refine List.filter_congr fun offset hoffset => ?_
      rw [decide_eq_decide]
      exact excessAt_append_iff (List.mem_range.mp hoffset)
    rw [excessClosers_concat, ih, List.length_append, List.length_singleton, List.range_succ,
      List.filter_append, hbefore, List.filter_cons, List.filter_nil]
    simp only [decide_eq_true_eq, excessAt_length_iff]

/-- A closing brace that takes the depth to a new low is in excess. -/
private theorem count_le_add_length_excessClosers (text : List Char) :
    text.count '}' ≤ text.count '{' + (excessClosers text).length := by
  induction text using List.reverseRecOn with
  | nil => rfl
  | append_singleton text c ih =>
    have hdepth := braceDepth_eq_sub (text ++ [c])
    rw [List.count_append, List.count_append] at hdepth ⊢
    rw [excessClosers_concat, List.length_append]
    split
    · have hone : [c].count '}' ≤ 1 := List.count_le_length
      rw [List.length_singleton]
      omega
    · next hnot =>
      by_cases hclose : c = '}'
      · -- the depth is not below zero here, whatever it was before
        have hnonneg : ¬ braceDepth (text ++ [c]) < 0 := fun hlt => hnot ⟨hclose, hlt⟩
        omega
      · have hnone : [c].count '}' = 0 := List.count_eq_zero.mpr (by simpa using Ne.symm hclose)
        omega

/-- What is in excess in a beginning of a text is in excess in the text. -/
private theorem count_take_le_add_length_excessClosers (source : List Char) (k : Nat) :
    (source.take k).count '}' ≤ (source.take k).count '{' + (excessClosers source).length := by
  have happend := excessClosersFrom_append 0 0 (source.take k) (source.drop k)
  rw [List.take_append_drop] at happend
  have hlength : (excessClosers (source.take k)).length ≤ (excessClosers source).length := by
    rw [excessClosers, excessClosers, happend, List.length_append]
    exact Nat.le_add_right _ _
  exact (count_le_add_length_excessClosers _).trans (Nat.add_le_add_left hlength _)

end Markup

/-- **Braces in excess are counted.** The rule reports, from left to right, the closing braces with
which more braces are closed than opened, one finding for each, and then, without a place, that
braces are left open exactly if more are opened than closed in the whole template. So there are at
least as many findings with a place as any beginning of the template has closing braces too many,
and there is no finding at all exactly if no beginning has any and the totals are equal. -/
theorem unbalancedBraces_check_offsets (options : Options) (source : List Char) :
    let offsets := (List.range source.length).filter (ExcessAt source ·)
    Rule.unbalancedBraces.check options source =
      .ok ((offsets.map fun offset =>
          Catalogue.unmatchedClosingBrackets.worded "Unmatched closing brackets"
            (some (Span.ofLength offset 1))) ++
        if source.count '}' < source.count '{' then
          [Catalogue.unmatchedOpeningBrackets.worded "Unmatched opening brackets" none]
        else []) ∧
    (∀ k, (source.take k).count '}' ≤ (source.take k).count '{' + offsets.length) ∧
    (Rule.unbalancedBraces.check options source = .ok [] ↔
      (∀ k, (source.take k).count '}' ≤ (source.take k).count '{') ∧
        source.count '{' = source.count '}') := by
  intro offsets
  have hoffsets : excessClosers source = offsets := excessClosers_eq_filter source
  have hcheck : Rule.unbalancedBraces.check options source = _ :=
    Kind.unmatchedBrackets.check_rule options source
  have hopen : 0 < braceDepth source ↔ source.count '}' < source.count '{' := by
    rw [braceDepth_eq_sub]
    omega
  rw [Kind.findings, hoffsets, Spec.when, endsOpen] at hcheck
  simp only [decide_eq_true_eq, hopen] at hcheck
  have hprefixes : ∀ k,
      (source.take k).count '}' ≤ (source.take k).count '{' + offsets.length := by
    rw [← hoffsets]
    exact count_take_le_add_length_excessClosers source
  refine ⟨hcheck, hprefixes, ?_⟩
  rw [hcheck, Except.ok.injEq, List.append_eq_nil_iff, List.map_eq_nil_iff, ite_eq_right_iff]
  constructor
  · rintro ⟨hnone, hclosed⟩
    rw [hnone, List.length_nil] at hprefixes
    have hle : source.count '}' ≤ source.count '{' := by
      simpa using hprefixes source.length
    have hnot : ¬ source.count '}' < source.count '{' := fun hlt => by simpa using hclosed hlt
    exact ⟨hprefixes, by omega⟩
  · rintro ⟨hle, heq⟩
    refine ⟨List.filter_eq_nil_iff.mpr fun offset _ hexcess => ?_, fun hlt => by omega⟩
    have hlt := (of_decide_eq_true hexcess).2
    have := hle (offset + 1)
    omega

end TemplateLint
