import Mathlib.Algebra.GroupWithZero.Nat
import Mathlib.Data.List.Basic
import Mathlib.Data.List.Induction
import TemplateLint.Proofs.Findings
import TemplateLint.Proofs.FirstOccurrences

/-!
# Tallies of expressions

A tally is built by meeting one text after the other: a text that is known is counted once more
where it stands, a new one is put at the end. `Tally.Counts` says what a tally has to do with the
texts that were met. It holds after every step (`Tally.Counts.add`), so it holds of the tally of a
list (`Tally.counts_ofList`), and the tally of a template is that of its expressions without the
blanks around them.

`repeatedExpression_check_tally` puts this together with what the rule for repeated expressions
reports of it.
-/

namespace TemplateLint

open TemplateLint.Markup TemplateLint.Text

namespace Markup

namespace Tally

/-- The texts that were met, in the order of the tally. -/
def keys (counts : Tally) : List (List Char) :=
  counts.map Prod.fst

@[simp] theorem keys_cons (entry : List Char × Nat) (counts : Tally) :
    keys (entry :: counts) = entry.1 :: counts.keys := rfl

theorem mem_keys_of_mem {counts : Tally} {entry : List Char × Nat} (h : entry ∈ counts) :
    entry.1 ∈ counts.keys :=
  List.mem_map_of_mem h

/-! ### One more text -/

section Add

variable {text : List Char} {counts : Tally}

private theorem keys_add (text : List Char) (counts : Tally) :
    (counts.add text).keys = if text ∈ counts.keys then counts.keys else counts.keys ++ [text] := by
  induction counts with
  | nil => rfl
  | cons entry counts ih =>
    obtain ⟨known, count⟩ := entry
    by_cases hknown : known = text
    · simp [add, hknown]
    · have hmem : text ∈ known :: keys counts ↔ text ∈ keys counts := by simp [Ne.symm hknown]
      rw [add, if_neg hknown, keys_cons, ih, keys_cons]
      simp only [hmem]
      split <;> rfl

/-- What becomes of the entries: those of other texts stay, and that of the text is counted once
more or begins. -/
private theorem mem_add (hnodup : counts.keys.Nodup) {entry : List Char × Nat}
    (h : entry ∈ counts.add text) :
    (entry ∈ counts ∧ entry.1 ≠ text) ∨
      (∃ count, (text, count) ∈ counts ∧ entry = (text, count + 1)) ∨
        (text ∉ counts.keys ∧ entry = (text, 1)) := by
  induction counts with
  | nil => exact .inr (.inr ⟨List.not_mem_nil, List.mem_singleton.mp h⟩)
  | cons first counts ih =>
    obtain ⟨known, count⟩ := first
    obtain ⟨hfresh, hnodup⟩ := List.nodup_cons.mp hnodup
    rw [add] at h
    split at h
    · next hknown =>
      subst hknown
      rcases List.mem_cons.mp h with rfl | h
      · exact .inr (.inl ⟨count, List.mem_cons_self, rfl⟩)
      · -- a text has one entry only
        refine .inl ⟨List.mem_cons_of_mem _ h, fun heq => hfresh ?_⟩
        have hkey := mem_keys_of_mem h
        rwa [heq] at hkey
    · next hknown =>
      rcases List.mem_cons.mp h with rfl | h
      · exact .inl ⟨List.mem_cons_self, hknown⟩
      · rcases ih hnodup h with ⟨hmem, hne⟩ | ⟨before, hmem, heq⟩ | ⟨hnew, heq⟩
        · exact .inl ⟨List.mem_cons_of_mem _ hmem, hne⟩
        · exact .inr (.inl ⟨before, List.mem_cons_of_mem _ hmem, heq⟩)
        · refine .inr (.inr ⟨?_, heq⟩)
          rw [keys_cons, List.mem_cons, not_or]
          exact ⟨Ne.symm hknown, hnew⟩

private theorem sum_add (text : List Char) (counts : Tally) :
    ((counts.add text).map Prod.snd).sum = (counts.map Prod.snd).sum + 1 := by
  induction counts with
  | nil => rfl
  | cons entry counts ih =>
    rw [add]
    split
    · simp only [List.map_cons, List.sum_cons]
      omega
    · simp only [List.map_cons, List.sum_cons, ih]
      omega

end Add

/-! ### Many texts -/

/-- A tally tells how often each text of a list occurs. -/
structure Counts (texts : List (List Char)) (counts : Tally) : Prop where
  /-- Texts stand in the order in which they first occur. -/
  order : counts.keys.Pairwise fun key next => texts.idxOf key < texts.idxOf next
  mem_keys : ∀ key, key ∈ counts.keys ↔ key ∈ texts
  count_eq : ∀ entry ∈ counts, entry.2 = texts.count entry.1
  total : (counts.map Prod.snd).sum = texts.length

namespace Counts

variable {texts : List (List Char)} {counts : Tally}

theorem nodup (h : counts.Counts texts) : counts.keys.Nodup :=
  FirstOccurrences.nodup ⟨h.order, h.mem_keys⟩

/-- **A step of the tally** counts the text that is met. -/
theorem add (h : counts.Counts texts) (text : List Char) :
    (counts.add text).Counts (texts ++ [text]) := by
  have hbefore : FirstOccurrences texts counts.keys := ⟨h.order, h.mem_keys⟩
  have hkeys : FirstOccurrences (texts ++ [text]) (counts.add text).keys := by
    rw [keys_add]
    split
    · next hknown => exact hbefore.again ((h.mem_keys text).mp hknown)
    · next hnew => exact hbefore.fresh (mt (h.mem_keys text).mpr hnew)
  refine ⟨hkeys.order, hkeys.mem_iff, fun entry hentry => ?_, ?_⟩
  · rcases mem_add h.nodup hentry with ⟨hmem, hne⟩ | ⟨count, hmem, rfl⟩ | ⟨hnew, rfl⟩
    · have hnone : [text].count entry.1 = 0 := List.count_eq_zero.mpr (by simpa using hne)
      rw [h.count_eq entry hmem, List.count_append, hnone, Nat.add_zero]
    · rw [List.count_append, List.count_singleton_self, ← h.count_eq _ hmem]
    · rw [h.mem_keys] at hnew
      rw [List.count_append, List.count_singleton_self, List.count_eq_zero.mpr hnew]
  · rw [sum_add, h.total, List.length_append, List.length_singleton]

end Counts

theorem counts_ofList (texts : List (List Char)) : (ofList texts).Counts texts := by
  induction texts using List.reverseRecOn with
  | nil => exact ⟨.nil, fun _ => Iff.rfl, by simp [ofList], rfl⟩
  | append_singleton texts text ih =>
    rw [ofList, List.foldl_append]
    exact ih.add text

end Tally

end Markup

/-- **Expressions are tallied up to the blanks around them.** The tally of a template lists the
trimmed bodies of its expressions, each once and in the order in which they first occur, with the
number of expressions that have this body, and these numbers add up to the number of expressions.
The rule for repeated expressions reports, in the order of the tally, one finding without a place
for each body that occurs more often and is longer than the options allow, and quotes body and
number. -/
theorem repeatedExpression_check_tally (options : Options) (source : List Char) :
    let bodies := (expressions source).map fun m => trim m.body
    let keys := (tally source).keys
    keys.Nodup ∧
    keys.Pairwise (fun key next => bodies.idxOf key < bodies.idxOf next) ∧
    (∀ key, key ∈ keys ↔ ∃ m ∈ expressions source, trim m.body = key) ∧
    (∀ key ∈ keys, trim key = key) ∧
    (∀ entry ∈ tally source,
      entry.2 = (expressions source).countP fun m => trim m.body = entry.1) ∧
    ((tally source).map Prod.snd).sum = (expressions source).length ∧
    Rule.repeatedExpression.check options source =
      .ok (((tally source).filter fun entry =>
          options.repeatCount < entry.2 ∧ options.repeatLength < entry.1.length).map fun entry =>
        Catalogue.repeatedExpression.worded
          ("Complex expression used " ++ toString entry.2 ++ " times: " ++
            String.ofList entry.1 ++ ". Consider using a variable.") none) := by
  intro bodies keys
  have hcounts : (tally source).Counts bodies := Tally.counts_ofList bodies
  have hmem : ∀ key, key ∈ keys ↔ ∃ m ∈ expressions source, trim m.body = key := fun key =>
    (hcounts.mem_keys key).trans List.mem_map
  refine ⟨hcounts.nodup, hcounts.order, hmem, fun key hkey => ?_, fun entry hentry => ?_, ?_, ?_⟩
  · obtain ⟨m, -, rfl⟩ := (hmem key).mp hkey
    exact trim_trim m.body
  · rw [hcounts.count_eq entry hentry, List.count, List.countP_map]
    exact List.countP_congr fun m _ => by simp
  · rw [hcounts.total, List.length_map]
  · simp only [Bool.decide_and]
    exact Kind.repeatedExpression.check_rule options source

end TemplateLint
