import Mathlib.Data.List.Nodup
import Mathlib.Data.List.Perm.Subperm
import Mathlib.Data.String.Basic
import TemplateLint.Proofs.Reports

/-!
# Switching codes off again and again

Options with codes switched off are made from options, so a caller may switch off more and more. A
call that names an unknown code fails and leaves the options as they were. `Options.attempt` is
what one call makes of options, and `Options.attempts` what a sequence of calls does.

A call looks only at its own codes. That is the same as checking everything anew with the codes
that are off already (`Options.withDisabled_eq_ofSettings`), because these are codes of the
catalogue. So whether a call fails does not depend on the calls before it, and a whole sequence
comes to one call with the codes of those that succeed (`Options.attempts_eq`).
`Options.attempts_accumulate` puts this together.
-/

namespace TemplateLint

/-! ### Codes -/

namespace Kind

theorem code_injective : Function.Injective code := by
  intro kind other h
  have hsome := congrArg ofCode? h
  rwa [ofCode?_code, ofCode?_code, Option.some.injEq] at hsome

private theorem nodup_all : all.Nodup := by
  decide

theorem ofCode?_eq_none_iff {code : String} :
    ofCode? code = none ↔ Catalogue.find? code = none := by
  constructor
  · intro h
    rw [← Option.not_isSome_iff_eq_none] at h ⊢
    exact mt ofCode?_isSome_of_find? h
  · intro h
    rw [Option.eq_none_iff_forall_ne_some]
    rintro kind hkind
    rw [← code_of_ofCode? hkind, find?_code] at h
    cases h

end Kind

private theorem nodup_eraseDups (texts : List String) : texts.eraseDups.Nodup := by
  induction hlength : texts.length using Nat.strong_induction_on generalizing texts with
  | _ n ih =>
    cases texts with
    | nil => exact List.nodup_nil
    | cons text texts =>
      rw [List.eraseDups_cons, List.nodup_cons]
      refine ⟨by simp, ih _ ?_ _ rfl⟩
      have hfilter := List.length_filter_le (fun other => !other == text) texts
      rw [List.length_cons] at hlength
      omega

namespace Options

variable {options : Options} {codes : List String}

/-- Unknown codes are listed in strict order. -/
private theorem pairwise_unknownCodes (codes : List String) :
    (unknownCodes codes).Pairwise (· < ·) := by
  let unknown := (codes.filter fun code => (Kind.ofCode? code).isNone).eraseDups
  have htrans (a b c : String) : decide (a ≤ b) → decide (b ≤ c) → decide (a ≤ c) := by
    simpa using le_trans
  have htotal (a b : String) : decide (a ≤ b) || decide (b ≤ a) := by
    simpa using le_total a b
  have hsorted : (unknownCodes codes).Pairwise fun a b => decide (a ≤ b) :=
    List.pairwise_mergeSort htrans htotal unknown
  have hnodup : (unknownCodes codes).Nodup :=
    (List.mergeSort_perm unknown _).nodup_iff.mpr (nodup_eraseDups _)
  exact hsorted.imp₂ (fun a b hle hne => lt_of_le_of_ne (of_decide_eq_true hle) hne) hnodup

/-! ### One call -/

/-- Whether all codes of a call are codes of the catalogue. -/
private def areKnown (codes : List String) : Bool :=
  codes.all fun code => (Catalogue.find? code).isSome

theorem areKnown_iff : areKnown codes ↔ ∀ code ∈ codes, (Catalogue.find? code).isSome :=
  List.all_eq_true

private theorem not_areKnown_iff :
    ¬ areKnown codes ↔ ∃ code ∈ codes, Catalogue.find? code = none := by
  simp [areKnown]

/-- What a call does: it switches all its codes off, or complains about those that are unknown. -/
theorem withDisabled_eq (options : Options) (codes : List String) :
    options.withDisabled codes =
      if areKnown codes then .ok (options.without codes)
      else .error (.unknownCodes (unknownCodes codes)) := by
  split
  · next hknown => exact withDisabled_eq_ok (areKnown_iff.mp hknown) options
  · next hknown =>
    have hunknown : (unknownCodes codes).isEmpty = false := by
      obtain ⟨code, hcode, hnone⟩ := not_areKnown_iff.mp hknown
      rw [List.isEmpty_eq_false_iff]
      exact List.ne_nil_of_mem
        (mem_unknownCodes_iff.mpr ⟨hcode, Kind.ofCode?_eq_none_iff.mpr hnone⟩)
    simp only [withDisabled, hunknown]
    rfl

private theorem mem_disabledCodes_without {code : String} :
    code ∈ (options.without codes).disabledCodes ↔
      code ∈ options.disabledCodes ∨ code ∈ codes ∧ (Catalogue.find? code).isSome := by
  simp only [disabledCodes, List.mem_map, mem_disabled_without]
  constructor
  · rintro ⟨kind, hkind | hkind, rfl⟩
    · exact .inl ⟨kind, hkind, rfl⟩
    · exact .inr ⟨hkind, by rw [Kind.find?_code, Option.isSome_some]⟩
  · rintro (⟨kind, hkind, rfl⟩ | ⟨hcode, hknown⟩)
    · exact ⟨kind, .inl hkind, rfl⟩
    · obtain ⟨kind, hkind⟩ := Option.isSome_iff_exists.mp (Kind.ofCode?_isSome_of_find? hknown)
      obtain rfl := Kind.code_of_ofCode? hkind
      exact ⟨kind, .inr hcode, rfl⟩

/-! ### Checking everything anew -/

/-- The settings that describe options. -/
def settings (options : Options) : Settings where
  contextWindow := options.contextWindow
  guardTokens := options.guardTokens
  repeatCount := options.repeatCount
  repeatLength := options.repeatLength
  largeCollectionMarkers := options.largeCollectionMarkers
  quantifierMarkers := options.quantifierMarkers
  disabled := options.disabledCodes

private theorem areKnown_disabledCodes (options : Options) : areKnown options.disabledCodes := by
  rw [areKnown_iff, disabledCodes]
  intro code hcode
  obtain ⟨kind, -, rfl⟩ := List.mem_map.mp hcode
  rw [Kind.find?_code, Option.isSome_some]

private theorem unknownCodes_append_of_areKnown {others : List String} (h : areKnown others)
    (codes : List String) : unknownCodes (others ++ codes) = unknownCodes codes := by
  have hnone : others.filter (fun code => (Kind.ofCode? code).isNone) = [] := by
    rw [List.filter_eq_nil_iff]
    intro code hcode
    have hsome := Kind.ofCode?_isSome_of_find? (areKnown_iff.mp h code hcode)
    rwa [Option.isNone_iff_eq_none, ← Option.not_isSome_iff_eq_none, not_not]
  rw [unknownCodes, List.filter_append, hnone, List.nil_append, unknownCodes]

/-- A call is the check of the settings that describe the options, with the codes of the call added
to those that are off. -/
theorem withDisabled_eq_ofSettings (options : Options) (codes : List String) :
    options.withDisabled codes =
      ofSettings { options.settings with disabled := options.disabledCodes ++ codes } := by
  have hknown : areKnown (options.disabledCodes ++ codes) = areKnown codes := by
    have hold := areKnown_disabledCodes options
    rw [areKnown] at hold ⊢
    rw [List.all_append, hold, Bool.true_and, areKnown]
  have hunknown := unknownCodes_append_of_areKnown (areKnown_disabledCodes options) codes
  have hdisabled : (Kind.all.filter fun kind =>
      options.disabled.contains kind || codes.contains kind.code) =
      Kind.all.filter fun kind => ([] : List Kind).contains kind ||
        (options.disabledCodes ++ codes).contains kind.code := by
    refine List.filter_congr fun kind _ => ?_
    rw [Bool.eq_iff_iff]
    simp [disabledCodes, Kind.code_injective.eq_iff]
  have hwindow : ¬ (options.contextWindow : Int) < 0 := by omega
  have hthresholds : ¬ ((options.repeatCount : Int) < 0 ∨ (options.repeatLength : Int) < 0) := by
    omega
  simp only [ofSettings, settings, withDisabled_eq, hknown, hunknown, without, hdisabled,
    if_neg hwindow, if_neg hthresholds, Int.toNat_natCast]

/-! ### Many calls -/

/-- What a call makes of options; one that fails leaves them as they are. -/
def attempt (options : Options) (codes : List String) : Options :=
  match options.withDisabled codes with
  | .ok narrowed => narrowed
  | .error _ => options

/-- What a sequence of calls makes of options, each call on what the last successful one left. -/
def attempts (options : Options) (calls : List (List String)) : Options :=
  calls.foldl attempt options

private theorem without_nil (options : Options) : options.without [] = options := by
  have hfilter : (Kind.all.filter fun kind => options.disabled.contains kind) =
      options.disabled := by
    have hsublist := options.disabled_sublist.filter fun kind => options.disabled.contains kind
    rw [List.filter_eq_self.mpr (by simp)] at hsublist
    have hsubset : (Kind.all.filter fun kind => options.disabled.contains kind) ⊆
        options.disabled := by
      intro kind hkind
      simpa using List.of_mem_filter hkind
    exact (hsublist.eq_of_length_le ((Kind.nodup_all.filter _).subperm hsubset).length_le).symm
  cases options
  simpa [without] using hfilter

private theorem without_without (options : Options) (codes others : List String) :
    (options.without codes).without others = options.without (codes ++ others) := by
  simp only [without, Options.mk.injEq, true_and]
  refine List.filter_congr fun kind _ => ?_
  rw [Bool.eq_iff_iff]
  simp [Kind.mem_all, or_assoc]

/-- **A step of a sequence of calls.** -/
theorem attempt_eq (options : Options) (codes : List String) :
    options.attempt codes = if areKnown codes then options.without codes else options := by
  rw [attempt, withDisabled_eq]
  cases areKnown codes <;> rfl

/-- **A sequence of calls** comes to one call with the codes of those that succeed. -/
theorem attempts_eq (options : Options) (calls : List (List String)) :
    options.attempts calls = options.without (calls.filter areKnown).flatten := by
  induction calls generalizing options with
  | nil => exact (without_nil options).symm
  | cons codes calls ih =>
    rw [attempts, List.foldl_cons, ← attempts, ih, attempt_eq, List.filter_cons]
    split
    · rw [List.flatten_cons, without_without]
    · rfl

/-- **Codes that are switched off add up, call by call.** In a sequence of calls, each on the
options that the last successful one left, a call checks the settings as a whole with its codes
added. It fails exactly if one of its own codes is unknown, the complaint then lists the unknown
ones of its codes, each once and in order, and the options stay as they were. In the end those codes
are off that were off before or were named by a call that succeeded, and nothing else has
changed. -/
theorem attempts_accumulate (options : Options) (calls : List (List String)) :
    (∀ before codes later, calls = before ++ codes :: later →
      let current := options.attempts before
      current.withDisabled codes =
        ofSettings { current.settings with disabled := current.disabledCodes ++ codes } ∧
      ((∃ failure, current.withDisabled codes = .error failure) ↔
        ∃ code ∈ codes, Catalogue.find? code = none) ∧
      (∀ failure, current.withDisabled codes = .error failure →
        options.attempts (before ++ [codes]) = current ∧
        ∃ unknown : List String, unknown.Pairwise (· < ·) ∧
          (∀ code, code ∈ unknown ↔ code ∈ codes ∧ Catalogue.find? code = none) ∧
          failure.message =
            "Cannot disable unknown diagnostic code(s): " ++ String.intercalate ", " unknown) ∧
      ∀ narrowed, current.withDisabled codes = .ok narrowed →
        options.attempts (before ++ [codes]) = narrowed) ∧
    (∀ code, code ∈ (options.attempts calls).disabledCodes ↔
      code ∈ options.disabledCodes ∨
        ∃ codes ∈ calls, code ∈ codes ∧ ∀ other ∈ codes, Catalogue.find? other ≠ none) ∧
    (options.attempts calls).contextWindow = options.contextWindow ∧
    (options.attempts calls).guardTokens = options.guardTokens ∧
    (options.attempts calls).repeatCount = options.repeatCount ∧
    (options.attempts calls).repeatLength = options.repeatLength ∧
    (options.attempts calls).largeCollectionMarkers = options.largeCollectionMarkers ∧
    (options.attempts calls).quantifierMarkers = options.quantifierMarkers := by
  refine ⟨fun before codes later _ => ?_, fun code => ?_, ?_⟩
  · intro current
    have hnext : options.attempts (before ++ [codes]) = current.attempt codes := by
      rw [attempts, List.foldl_append]
      rfl
    refine ⟨current.withDisabled_eq_ofSettings codes, ?_, fun failure h => ?_, fun narrowed h => ?_⟩
    · rw [withDisabled_eq, ← not_areKnown_iff]
      cases areKnown codes <;> simp
    · refine ⟨by rw [hnext, attempt, h], unknownCodes codes, pairwise_unknownCodes codes, ?_, ?_⟩
      · simp only [mem_unknownCodes_iff, Kind.ofCode?_eq_none_iff, implies_true]
      · rw [withDisabled_eq] at h
        split at h
        · cases h
        · cases h
          rfl
    · rw [hnext, attempt, h]
  · rw [attempts_eq, mem_disabledCodes_without]
    simp only [List.mem_flatten, List.mem_filter, areKnown_iff, ← Option.isSome_iff_ne_none]
    refine or_congr_right ⟨?_, ?_⟩
    · rintro ⟨⟨codes, ⟨hcodes, hknown⟩, hcode⟩, -⟩
      exact ⟨codes, hcodes, hcode, hknown⟩
    · rintro ⟨codes, hcodes, hcode, hknown⟩
      exact ⟨⟨codes, ⟨hcodes, hknown⟩, hcode⟩, hknown code hcode⟩
  · rw [attempts_eq]
    exact ⟨rfl, rfl, rfl, rfl, rfl, rfl⟩

end Options

end TemplateLint
