import TemplateLint.Diagnostic.Catalogue
import TemplateLint.Proofs.Failures
import TemplateLint.Proofs.FirstOccurrences

/-!
# The index of a catalogue

The index of a list of entries is made in one walk, which compares an entry with the one that was
kept for its code and with no other. That is enough: `Catalogue.Indexes` says what the entries kept
so far have to do with the entries seen so far, among other things that all entries of a code that
were seen agree with each other. It holds after every entry that is let pass
(`Indexes.keep`, `Indexes.pass`), and an entry that is not let pass is the first one that disagrees
with an earlier entry. `Catalogue.index_firstOfEachCode` says what follows for whole lists.
-/

namespace TemplateLint.Catalogue

/-- The first entry with a code. -/
def firstOf? (entries : List Spec) (code : String) : Option Spec :=
  entries.find? fun spec => spec.code == code

/-- Two entries have one code but not one severity and pass. -/
def Disagree (a b : Spec) : Prop :=
  a.code = b.code ∧ ¬ (a.severity = b.severity ∧ a.category = b.category)

/-- No two entries of a list disagree. -/
def Consistent (entries : List Spec) : Prop :=
  ∀ a ∈ entries, ∀ b ∈ entries, a.code = b.code → a.severity = b.severity ∧ a.category = b.category

section Entries

variable {entries seen kept rest : List Spec} {spec first : Spec} {code : String}

private theorem mem_of_firstOf? (h : firstOf? entries code = some first) :
    first ∈ entries ∧ first.code = code :=
  ⟨List.mem_of_find?_eq_some h, by simpa using List.find?_some h⟩

private theorem firstOf?_eq_none_iff :
    firstOf? entries code = none ↔ code ∉ entries.map Spec.code := by
  simp [firstOf?]

private theorem firstOf?_concat (entries : List Spec) (spec : Spec) (code : String) :
    firstOf? (entries ++ [spec]) code =
      (firstOf? entries code).or (if spec.code = code then some spec else none) := by
  rw [firstOf?, List.find?_append, List.find?_singleton, firstOf?]
  simp

private theorem consistent_concat (hseen : Consistent seen)
    (hspec : ∀ a ∈ seen, a.code = spec.code →
      a.severity = spec.severity ∧ a.category = spec.category) : Consistent (seen ++ [spec]) := by
  intro a ha b hb hcode
  rw [List.mem_append, List.mem_singleton] at ha hb
  rcases ha with ha | rfl <;> rcases hb with hb | rfl
  · exact hseen a ha b hb hcode
  · exact hspec a ha hcode
  · have hsame := hspec b hb hcode.symm
    exact ⟨hsame.1.symm, hsame.2.symm⟩
  · exact ⟨rfl, rfl⟩

/-- An earlier entry that disagrees with a later one spoils the list. -/
private theorem not_consistent_of_disagree {before later : List Spec} {earlier : Spec}
    (hearlier : earlier ∈ before) (h : Disagree earlier spec) :
    ¬ Consistent (before ++ spec :: later) := by
  intro hconsistent
  refine h.2 (hconsistent earlier ?_ spec ?_ h.1)
  · exact List.mem_append_left _ hearlier
  · exact List.mem_append_right _ List.mem_cons_self

/-! ### The walk -/

/-- The entries `kept` are the first ones of their codes among those `seen`. -/
structure Indexes (seen kept : List Spec) : Prop where
  consistent : Consistent seen
  first : ∀ code, firstOf? kept code = firstOf? seen code
  /-- Codes stand in the order in which they first occur. -/
  codes : FirstOccurrences (seen.map Spec.code) (kept.map Spec.code)

namespace Indexes

theorem nil : Indexes [] [] :=
  ⟨by simp [Consistent], fun _ => rfl, .nil⟩

/-- An entry with a new code is kept. -/
theorem keep (h : Indexes seen kept) (hnew : firstOf? kept spec.code = none) :
    Indexes (seen ++ [spec]) (kept ++ [spec]) := by
  rw [h.first, firstOf?_eq_none_iff] at hnew
  refine ⟨consistent_concat h.consistent fun a ha hcode => ?_, fun code => ?_, ?_⟩
  · exact absurd (List.mem_map.mpr ⟨a, ha, hcode⟩) hnew
  · rw [firstOf?_concat, firstOf?_concat, h.first]
  · rw [List.map_append, List.map_append]
    exact h.codes.fresh hnew

/-- An entry that agrees with the one kept for its code is passed over. -/
theorem pass (h : Indexes seen kept) (hfirst : firstOf? kept spec.code = some first)
    (hagree : first.severity = spec.severity ∧ first.category = spec.category) :
    Indexes (seen ++ [spec]) kept := by
  rw [h.first] at hfirst
  obtain ⟨hmem, hcode⟩ := mem_of_firstOf? hfirst
  refine ⟨consistent_concat h.consistent fun a ha hsame => ?_, fun code => ?_, ?_⟩
  · -- what was seen of this code agrees with the entry that was kept, so with the new one as well
    have hkept := h.consistent a ha first hmem (hsame.trans hcode.symm)
    exact ⟨hkept.1.trans hagree.1, hkept.2.trans hagree.2⟩
  · rw [firstOf?_concat, h.first]
    split
    · next heq => rw [← heq, hfirst, Option.some_or]
    · rw [Option.or_none]
  · rw [List.map_append]
    exact h.codes.again (List.mem_map.mpr ⟨first, hmem, hcode⟩)

/-- **A walk that comes to its end** indexes everything it has seen. -/
theorem of_indexOnto {result : List Spec} (h : Indexes seen kept)
    (hwalk : indexOnto kept rest = .ok result) : Indexes (seen ++ rest) result := by
  fun_induction indexOnto kept rest generalizing seen with
  | case1 kept =>
    cases hwalk
    rwa [List.append_nil]
  | case2 kept spec rest hnew ih =>
    rw [List.append_cons]
    exact ih (h.keep hnew) hwalk
  | case3 kept spec rest first hfirst hagree ih =>
    rw [List.append_cons]
    exact ih (h.pass hfirst hagree) hwalk
  | case4 => cases hwalk

/-- **A walk that breaks off** has met the first entry that disagrees with an earlier one. -/
theorem exists_of_indexOnto_eq_error {conflict : Conflict} (h : Indexes seen kept)
    (hwalk : indexOnto kept rest = .error conflict) :
    ∃ before spec later, seen ++ rest = before ++ spec :: later ∧ Consistent before ∧
      (∃ earlier ∈ before, Disagree earlier spec) ∧ conflict = ⟨spec.code⟩ := by
  fun_induction indexOnto kept rest generalizing seen with
  | case1 => cases hwalk
  | case2 kept spec rest hnew ih =>
    rw [List.append_cons]
    exact ih (h.keep hnew) hwalk
  | case3 kept spec rest first hfirst hagree ih =>
    rw [List.append_cons]
    exact ih (h.pass hfirst hagree) hwalk
  | case4 kept spec rest first hfirst hagree =>
    cases hwalk
    obtain ⟨hmem, hcode⟩ := mem_of_firstOf? ((h.first spec.code).symm.trans hfirst)
    exact ⟨seen, spec, rest, rfl, h.consistent, ⟨first, hmem, hcode, hagree⟩, rfl⟩

end Indexes

end Entries

/-- **The index of a list of entries is made exactly if entries of one code have one severity and
one pass.** It has each code once, in the order in which the codes first occur in the list, and
gives for each code the first entry that has it. Otherwise the complaint names the code of the first
entry that disagrees with an earlier one. -/
theorem index_firstOfEachCode (entries : List Spec) :
    ((∃ kept, index entries = .ok kept) ↔
      ∀ a ∈ entries, ∀ b ∈ entries, a.code = b.code →
        a.severity = b.severity ∧ a.category = b.category) ∧
    (∀ kept, index entries = .ok kept →
      (kept.map Spec.code).Nodup ∧
      (kept.map Spec.code).Pairwise (fun code next =>
        (entries.map Spec.code).idxOf code < (entries.map Spec.code).idxOf next) ∧
      ∀ code, kept.find? (·.code == code) = entries.find? (·.code == code)) ∧
    ∀ conflict, index entries = .error conflict →
      ∃ before spec later, entries = before ++ spec :: later ∧ Consistent before ∧
        (∃ earlier ∈ before, earlier.code = spec.code ∧
          ¬ (earlier.severity = spec.severity ∧ earlier.category = spec.category)) ∧
        conflict.message =
          "Diagnostic code `" ++ spec.code ++ "` maps to more than one severity/category" := by
  refine ⟨⟨fun ⟨kept, h⟩ => (Indexes.nil.of_indexOnto h).consistent, fun hentries => ?_⟩,
    fun kept h => ?_, fun conflict h => ?_⟩
  · by_contra hfails
    obtain ⟨conflict, h⟩ := not_exists_eq_ok_iff.mp hfails
    obtain ⟨before, spec, later, rfl, -, ⟨earlier, hearlier, hdisagree⟩, -⟩ :=
      Indexes.nil.exists_of_indexOnto_eq_error h
    exact not_consistent_of_disagree hearlier hdisagree hentries
  · have hindexes := Indexes.nil.of_indexOnto h
    exact ⟨hindexes.codes.nodup, hindexes.codes.order, hindexes.first⟩
  · obtain ⟨before, spec, later, heq, hbefore, hdisagree, rfl⟩ :=
      Indexes.nil.exists_of_indexOnto_eq_error h
    exact ⟨before, spec, later, heq, hbefore, hdisagree, rfl⟩

end TemplateLint.Catalogue
