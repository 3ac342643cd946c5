import Mathlib.Data.List.Nodup

/-!
# Items in the order of their first occurrence

A walk along a list that keeps each item when it is met for the first time and passes over it later
keeps the items of the list, each once and in the order in which they first occur.
`FirstOccurrences` says this of the items met and kept so far, and there is one lemma for each of
the two things that can happen to the next item.
-/

namespace TemplateLint

variable {α : Type} [BEq α] {met kept : List α} {item : α}

/-- The items `kept` are those `met`, in the order in which they were first met. -/
structure FirstOccurrences (met kept : List α) : Prop where
  order : kept.Pairwise fun a b => met.idxOf a < met.idxOf b
  mem_iff : ∀ item, item ∈ kept ↔ item ∈ met

namespace FirstOccurrences

theorem nil : FirstOccurrences ([] : List α) [] :=
  ⟨.nil, fun _ => Iff.rfl⟩

theorem nodup (h : FirstOccurrences met kept) : kept.Nodup := by
  refine h.order.imp fun {a b} hlt => ?_
  rintro rfl
  exact Nat.lt_irrefl _ hlt

variable [LawfulBEq α]

/-- One more item does not change when those met before were first met. -/
private theorem order_concat (h : FirstOccurrences met kept) (item : α) :
    kept.Pairwise fun a b => (met ++ [item]).idxOf a < (met ++ [item]).idxOf b := by
  refine h.order.imp_of_mem fun {a b} ha hb hlt => ?_
  rwa [List.idxOf_append_of_mem ((h.mem_iff a).mp ha),
    List.idxOf_append_of_mem ((h.mem_iff b).mp hb)]

/-- An item that was met before is passed over. -/
theorem again (h : FirstOccurrences met kept) (hitem : item ∈ met) :
    FirstOccurrences (met ++ [item]) kept := by
  refine ⟨h.order_concat item, fun other => ?_⟩
  rw [h.mem_iff, List.mem_append, List.mem_singleton]
  exact ⟨.inl, fun hother => hother.elim id fun heq => heq ▸ hitem⟩

/-- A new item is kept. -/
theorem fresh (h : FirstOccurrences met kept) (hitem : item ∉ met) :
    FirstOccurrences (met ++ [item]) (kept ++ [item]) := by
  refine ⟨?_, fun other => by rw [List.mem_append, List.mem_append, h.mem_iff]⟩
  refine List.pairwise_append.mpr ⟨h.order_concat item, List.pairwise_singleton _ _, ?_⟩
  intro a ha b hb
  obtain rfl := List.mem_singleton.mp hb
  have hmet := (h.mem_iff a).mp ha
  rw [List.idxOf_append_of_mem hmet, List.idxOf_append_of_notMem hitem]
  exact Nat.lt_add_right _ (List.idxOf_lt_length_of_mem hmet)

end FirstOccurrences

end TemplateLint
