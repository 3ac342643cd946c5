import TemplateLint.Markup.Marker

/-!
# Nested loops

Loops are nested where two loop tags are followed by two loop closing tags. Taking the earliest
candidate at each of the four steps finds such tags whenever there are any.
-/

namespace TemplateLint.Markup

open TemplateLint.Text

/-- Loop tags: the word `for` and at least one more character before the closing braces. -/
def loopTag : MarkerForm :=
  ⟨.loop, ['}', '}'], true⟩

/-- The first loop tag at or after an offset. -/
def nextLoopTag? (source : List Char) (offset : Nat) : Option Marker :=
  (loopTag.markers source offset).head?

/-- The first loop closing tag at or after an offset. -/
def nextLoopEnd? (source : List Char) (offset : Nat) : Option Occurrence :=
  loopClosingTag.find? offset (source.drop offset)

theorem le_start_of_nextLoopTag? {source : List Char} {offset : Nat} {m : Marker}
    (h : nextLoopTag? source offset = some m) : offset ≤ m.start := by
  have hmem : m ∈ loopTag.markers source offset := List.mem_of_head? h
  exact MarkerForm.le_start_of_mem hmem

theorem le_start_of_nextLoopEnd? {source : List Char} {offset : Nat} {o : Occurrence}
    (h : nextLoopEnd? source offset = some o) : offset ≤ o.start :=
  Pattern.le_start h

/-- From the first of two loop tags to the second of two closing tags that follow them. -/
def nestedLoop? (source : List Char) : Option Span := do
  let outer ← nextLoopTag? source 0
  let inner ← nextLoopTag? source outer.stop
  let innerEnd ← nextLoopEnd? source inner.stop
  let outerEnd ← nextLoopEnd? source innerEnd.stop
  if h : outer.start ≤ outerEnd.stop then some ⟨outer.start, outerEnd.stop, h⟩ else none

/-- Four tags one after the other always make a span: the earliest loop tag, the next one after
it, and the earliest two closing tags after both. -/
theorem nestedLoop?_eq_some_iff {source : List Char} {span : Span} :
    nestedLoop? source = some span ↔
      ∃ outer inner innerEnd outerEnd,
        nextLoopTag? source 0 = some outer ∧
        nextLoopTag? source outer.stop = some inner ∧
        nextLoopEnd? source inner.stop = some innerEnd ∧
        nextLoopEnd? source innerEnd.stop = some outerEnd ∧
        span.start = outer.start ∧ span.stop = outerEnd.stop := by
  obtain ⟨start, stop, hordered⟩ := span
  simp only [nestedLoop?, Option.bind_eq_bind, Option.bind_eq_some_iff]
  constructor
  · rintro ⟨outer, houter, inner, hinner, innerEnd, hinnerEnd, outerEnd, houterEnd, h⟩
    split at h
    · cases h
      exact ⟨outer, inner, innerEnd, outerEnd, houter, hinner, hinnerEnd, houterEnd, rfl, rfl⟩
    · simp at h
  · rintro ⟨outer, inner, innerEnd, outerEnd, houter, hinner, hinnerEnd, houterEnd, rfl, rfl⟩
    exact ⟨outer, houter, inner, hinner, innerEnd, hinnerEnd, outerEnd, houterEnd,
      dif_pos hordered⟩

/-- Nothing but a missing tag keeps a template from having nested loops. -/
theorem nestedLoop?_eq_none_iff {source : List Char} :
    nestedLoop? source = none ↔
      ∀ outer inner innerEnd,
        nextLoopTag? source 0 = some outer →
        nextLoopTag? source outer.stop = some inner →
        nextLoopEnd? source inner.stop = some innerEnd →
        nextLoopEnd? source innerEnd.stop = none := by
  constructor
  · intro h outer inner innerEnd houter hinner hinnerEnd
    cases houterEnd : nextLoopEnd? source innerEnd.stop with
    | none => rfl
    | some outerEnd =>
      have hle : outer.start ≤ outerEnd.stop := by
        have h₁ := le_start_of_nextLoopTag? hinner
        have h₂ := le_start_of_nextLoopEnd? hinnerEnd
        have h₃ := le_start_of_nextLoopEnd? houterEnd
        simp only [Marker.stop, Occurrence.stop] at h₁ h₂ h₃ ⊢
        omega
      have hsome : nestedLoop? source = some ⟨outer.start, outerEnd.stop, hle⟩ :=
        nestedLoop?_eq_some_iff.mpr
          ⟨outer, inner, innerEnd, outerEnd, houter, hinner, hinnerEnd, houterEnd, rfl, rfl⟩
      rw [hsome] at h
      simp at h
  · intro h
    cases hloop : nestedLoop? source with
    | none => rfl
    | some span =>
      obtain ⟨outer, inner, innerEnd, outerEnd, houter, hinner, hinnerEnd, houterEnd, -, -⟩ :=
        nestedLoop?_eq_some_iff.mp hloop
      rw [h outer inner innerEnd houter hinner hinnerEnd] at houterEnd
      simp at houterEnd

end TemplateLint.Markup
