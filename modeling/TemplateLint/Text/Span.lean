/-!
# Spans of text

A `Span` is a half-open interval of character offsets into a text, and its two ends are in order
by construction. Offsets that come from outside are integers, so the makers `Span.ofBounds`,
`Span.ofOffset`, `Span.emptyAt` and `Span.widen` can fail, and `SpanError` says how. Spans are
ordered by their start, then by their stop.
-/

namespace TemplateLint.Text

/-- The characters of a text from offset `start` up to, and without, offset `stop`. -/
structure Span where
  /-- Offset of the first character covered. -/
  start : Nat
  /-- Offset just after the last character covered. -/
  stop : Nat
  /-- A span does not run backwards. -/
  ordered : start ≤ stop
  deriving DecidableEq

/-- Why offsets make no span. -/
inductive SpanError where
  /-- One of the two ends lies before the text. -/
  | negative
  /-- The span would end before it starts. -/
  | reversed
  /-- A span cannot be widened by less than nothing. -/
  | negativeRadius
  deriving DecidableEq

/-- The wording of each cause. -/
def SpanError.message : SpanError → String
  | .negative => "TextRange positions cannot be negative"
  | .reversed => "TextRange invariant violated: start > end"
  | .negativeRadius => "radius cannot be negative"

namespace Span

/-- The span between two offsets. An end before the text is the first thing found wrong. -/
def ofBounds (start stop : Int) : Except SpanError Span :=
  if start < 0 ∨ stop < 0 then .error .negative
  else if h : start.toNat ≤ stop.toNat then .ok ⟨start.toNat, stop.toNat, h⟩
  else .error .reversed

/-- The span of `length` characters from `offset` on. -/
def ofOffset (offset length : Int) : Except SpanError Span :=
  ofBounds offset (offset + length)

/-- The span at `offset` that covers nothing. -/
def emptyAt (offset : Int) : Except SpanError Span :=
  ofBounds offset offset

/-- The span of `length` characters from an offset of the text on. -/
def ofLength (start length : Nat) : Span :=
  ⟨start, start + length, Nat.le_add_right _ _⟩

/-- Whether the span covers no character. -/
def isEmpty (span : Span) : Bool :=
  span.start == span.stop

/-- Whether the character at `offset` is covered. -/
def contains (span : Span) (offset : Int) : Bool :=
  decide ((span.start : Int) ≤ offset) && decide (offset < span.stop)

/-- The span grown by `radius` on both sides, but not beyond the offsets from `0` to `limit`. -/
def widen (span : Span) (radius limit : Int) : Except SpanError Span :=
  if radius < 0 then .error .negativeRadius
  else ofBounds (max 0 (span.start - radius)) (min limit (span.stop + radius))

/-- The part of `text` that the span covers; what lies beyond the end of the text is cut off. -/
def slice {α : Type} (span : Span) (text : List α) : List α :=
  (text.drop span.start).take (span.stop - span.start)

/-- The span as it is shown to a reader. -/
def display (span : Span) : String :=
  "TextRange(" ++ toString span.start ++ ", " ++ toString span.stop ++ ")"

instance : LE Span where
  le a b := a.start < b.start ∨ (a.start = b.start ∧ a.stop ≤ b.stop)

instance : LT Span where
  lt a b := a.start < b.start ∨ (a.start = b.start ∧ a.stop < b.stop)

instance (a b : Span) : Decidable (a ≤ b) :=
  inferInstanceAs (Decidable (_ ∨ _))

instance (a b : Span) : Decidable (a < b) :=
  inferInstanceAs (Decidable (_ ∨ _))

/-- The spans by start, then by stop; equal spans keep their places. -/
def sort (spans : List Span) : List Span :=
  spans.mergeSort fun a b => decide (a ≤ b)

/-! ### When making a span succeeds -/

theorem ofBounds_eq_ok_iff {start stop : Int} {span : Span} :
    ofBounds start stop = .ok span ↔ (span.start : Int) = start ∧ (span.stop : Int) = stop := by
  obtain ⟨first, last, hle⟩ := span
  unfold ofBounds
  constructor
  · intro h
    split at h
    · simp at h
    · split at h
      · simp only [Except.ok.injEq, Span.mk.injEq] at h
        simp only
        omega
      · simp at h
  · rintro ⟨rfl, rfl⟩
    have hstart : ¬ ((first : Int) < 0 ∨ (last : Int) < 0) := by omega
    simp [hstart, hle]

@[simp] theorem ofBounds_natCast (span : Span) :
    ofBounds (span.start : Int) (span.stop : Int) = .ok span :=
  ofBounds_eq_ok_iff.mpr ⟨rfl, rfl⟩

/-- A negative end is reported before anything else. -/
theorem ofBounds_eq_negative_iff {start stop : Int} :
    ofBounds start stop = .error .negative ↔ start < 0 ∨ stop < 0 := by
  unfold ofBounds
  split
  · next h => simp [h]
  · next h => split <;> simp [h]

theorem ofBounds_eq_reversed_iff {start stop : Int} :
    ofBounds start stop = .error .reversed ↔ 0 ≤ start ∧ 0 ≤ stop ∧ stop < start := by
  unfold ofBounds
  split
  · simp; omega
  · split
    · simp; omega
    · simp; omega

/-- Widening gives one span: the two ends moved by the radius, each cut off on its own side. -/
theorem widen_eq_ok_iff {span wide : Span} {radius limit : Int} :
    span.widen radius limit = .ok wide ↔
      0 ≤ radius ∧ (wide.start : Int) = max 0 (span.start - radius) ∧
        (wide.stop : Int) = min limit (span.stop + radius) := by
  unfold widen
  split
  · next hneg => simp [Int.not_le.mpr hneg]
  · next hradius => rw [ofBounds_eq_ok_iff, and_iff_right (Int.not_lt.mp hradius)]

end Span

end TemplateLint.Text
