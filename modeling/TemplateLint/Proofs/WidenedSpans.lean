import TemplateLint.Text.Span

/-!
# Widening a span

`Span.widen` moves both ends of a span outwards and cuts them off at the two ends of a text. The
start is cut off at zero only and the stop at the limit only. So a span that lies behind the limit
may begin behind it even when it is widened, and then there is no widened span.

* `widen_eq_error_iff`: the three ways in which widening fails, each with its cause.
* `widen_widen`: what has been widened within a limit can be widened again, and that it was cut off
  in between does not show.
-/

namespace TemplateLint.Text.Span

variable {span wide : Span} {radius further limit : Int}

/-- Bounds are not blamed on a radius. -/
private theorem ofBounds_ne_negativeRadius (start stop : Int) :
    ofBounds start stop ≠ .error .negativeRadius := by
  unfold ofBounds
  split
  · simp
  · split <;> simp

/-- Widening fails for a radius below zero, for a limit below zero, and where the widened span would
begin behind the limit. -/
theorem widen_eq_error_iff {error : SpanError} :
    span.widen radius limit = .error error ↔
      (radius < 0 ∧ error = .negativeRadius) ∨
      (0 ≤ radius ∧ limit < 0 ∧ error = .negative) ∨
      (0 ≤ radius ∧ 0 ≤ limit ∧ limit < span.start - radius ∧ error = .reversed) := by
  have hordered := span.ordered
  unfold widen
  split
  · next hneg => simp [hneg, Int.not_le.mpr hneg, eq_comm]
  · next hradius =>
    cases error with
    | negative =>
      rw [ofBounds_eq_negative_iff]
      simp only [reduceCtorEq, and_false, and_true, false_or, or_false]
      omega
    | reversed =>
      rw [ofBounds_eq_reversed_iff]
      simp only [reduceCtorEq, and_false, and_true, false_or]
      omega
    | negativeRadius => simp [ofBounds_ne_negativeRadius, hradius]

/-- Every offset of a span that lies before the limit is an offset of the widened span. -/
private theorem contains_of_widen (h : span.widen radius limit = .ok wide) {offset : Int}
    (hoffset : span.contains offset) (hlimit : offset < limit) : wide.contains offset := by
  obtain ⟨hradius, hstart, hstop⟩ := widen_eq_ok_iff.mp h
  simp only [contains, Bool.and_eq_true, decide_eq_true_eq] at hoffset ⊢
  omega

/-- Widening twice is widening once by both radii. The end that was cut off first would be cut off
at the same place later. -/
theorem widen_widen (h : span.widen radius limit = .ok wide) (hfurther : 0 ≤ further) :
    ∃ wider, wide.widen further limit = .ok wider ∧
      span.widen (radius + further) limit = .ok wider := by
  obtain ⟨hradius, hstart, hstop⟩ := widen_eq_ok_iff.mp h
  have hordered := wide.ordered
  -- the first widening begins and ends within the limit, so the limit is not negative
  let wider : Span :=
    ⟨wide.start - further.toNat, (min limit (wide.stop + further)).toNat, by omega⟩
  have hstart' : (wider.start : Int) = max 0 (wide.start - further) := by
    simp only [wider]
    omega
  have hstop' : (wider.stop : Int) = min limit (wide.stop + further) := by
    simp only [wider]
    omega
  exact ⟨wider, widen_eq_ok_iff.mpr ⟨hfurther, hstart', hstop'⟩,
    widen_eq_ok_iff.mpr ⟨by omega, by omega, by omega⟩⟩

/-- **Widening is an action of the radii, within the limit.** It fails exactly for a radius below
zero or where the start of the widened span, cut off at zero, lies behind the limit. Otherwise it
moves both ends by the radius and cuts them off, which gives a span between zero and the limit that
covers all of the span that lies before the limit; and the result can be widened further, by any
radius, to what the sum of the two radii gives at once. -/
theorem widen_acts (span : Span) (radius limit : Int) :
    ((∃ error, span.widen radius limit = .error error) ↔
      radius < 0 ∨ limit < max 0 (span.start - radius)) ∧
    ∀ wide, span.widen radius limit = .ok wide →
      ((wide.start : Int) = max 0 (span.start - radius) ∧
        (wide.stop : Int) = min limit (span.stop + radius)) ∧
      ((0 : Int) ≤ wide.start ∧ wide.start ≤ wide.stop ∧ (wide.stop : Int) ≤ limit) ∧
      (∀ offset, span.contains offset → offset < limit → wide.contains offset) ∧
      ∀ further, 0 ≤ further → ∃ wider, wide.widen further limit = .ok wider ∧
        span.widen (radius + further) limit = .ok wider := by
  refine ⟨?_, fun wide h => ⟨(widen_eq_ok_iff.mp h).2, ?_, fun offset => contains_of_widen h,
    fun further => widen_widen h⟩⟩
  · simp only [widen_eq_error_iff, exists_or, exists_and_left, exists_eq, and_true]
    omega
  · obtain ⟨-, -, hstop⟩ := widen_eq_ok_iff.mp h
    exact ⟨by omega, wide.ordered, by omega⟩

end TemplateLint.Text.Span
