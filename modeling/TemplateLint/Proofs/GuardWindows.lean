import TemplateLint.Proofs.ExpressionScans

/-!
# Guards in the window of a property access

A property access is reported unless a guard stands near it. The rule cuts a window out of the
template, as wide as the options say and cut off where the template begins and ends, and looks for
the guards in the text of the window. `occursIn_window_iff` turns this into offsets of the template:
a token counts exactly if it lies in the window as a whole. A token that an edge cuts does not
count, and one that touches the edge does.

`nilCheck_check_unguarded` says with this what the rule reports, without any window text.
-/

namespace TemplateLint

open TemplateLint.Markup TemplateLint.Text

/-! ### Tokens in a window -/

instance (source : List Char) (start : Nat) (piece : List Char) :
    Decidable (StandsAt source start piece) :=
  inferInstanceAs (Decidable (_ <+: _))

/-- A text stands in a window exactly if it stands in the template and does not reach beyond the
edges of the window. -/
theorem Text.occursIn_window_iff {needle source : List Char} {low high : Nat} (hle : low ≤ high)
    (hlength : low ≤ source.length) :
    occursIn needle ((source.take high).drop low) ↔
      ∃ offset, low ≤ offset ∧ offset + needle.length ≤ min source.length high ∧
        StandsAt source offset needle := by
  rw [occursIn_iff]
  constructor
  · rintro ⟨before, later, htext⟩
    rw [List.append_assoc] at htext
    refine ⟨low + before.length, Nat.le_add_right _ _, ?_, ?_⟩
    · have hwindow := congrArg List.length htext
      simp only [List.length_append, List.length_drop, List.length_take] at hwindow
      omega
    · have hdrop := drop_add_length htext.symm
      rw [List.drop_take] at hdrop
      exact (List.prefix_append needle later).trans (hdrop ▸ List.take_prefix _ _)
  · rintro ⟨offset, hlow, hhigh, hstands⟩
    -- what follows the offset in the window is the end of the window
    have hneedle : needle <+: (source.take high).drop offset := by
      rw [List.drop_take, List.prefix_take_iff]
      exact ⟨hstands, by omega⟩
    have hend : (source.take high).drop offset <:+ (source.take high).drop low := by
      rw [← Nat.add_sub_cancel' hlow, ← List.drop_drop]
      exact List.drop_suffix _ _
    exact hneedle.isInfix.trans hend.isInfix

/-- A guard stands near a span: the whole of it lies in the template, and no farther from the span
than the options say. -/
def Options.GuardNear (options : Options) (source : List Char) (span : Span) : Prop :=
  ∃ token ∈ options.guardTokens, ∃ offset,
    span.start - options.contextWindow ≤ offset ∧
    offset + token.toList.length ≤ min source.length (span.stop + options.contextWindow) ∧
    StandsAt source offset token.toList

instance (options : Options) (source : List Char) (span : Span) :
    Decidable (options.GuardNear source span) :=
  decidable_of_iff
    (∃ token ∈ options.guardTokens, ∃ offset ≤ source.length,
      span.start - options.contextWindow ≤ offset ∧
      offset + token.toList.length ≤ min source.length (span.stop + options.contextWindow) ∧
      StandsAt source offset token.toList)
    (by
      refine exists_congr fun token => and_congr_right fun _ => exists_congr fun offset => ?_
      exact ⟨And.right, fun h => ⟨by omega, h⟩⟩)

private theorem Options.guards_iff {options : Options} {source : List Char} {m : Marker}
    (hm : m.stop ≤ source.length) :
    options.guards source m ↔ options.GuardNear source m.span := by
  have hle : m.start ≤ m.stop := m.span.ordered
  rw [guards, List.any_eq_true]
  refine exists_congr fun token => and_congr_right fun _ => ?_
  exact occursIn_window_iff (by omega) (by omega)

private theorem Markup.slice_of_mem_propertyAccesses {source : List Char} {m : Marker}
    (h : m ∈ propertyAccesses source) : m.span.slice source = m.text :=
  (MarkerForm.standsAt_of_mem (List.mem_of_mem_filter h)).slice_ofLength

/-- **Property accesses are reported unless a guard stands near them.** They are the leftmost
matches of their expression, and each has a window, whatever the options say. Those are reported, in
their order and with their text, for which no guard lies in the template from the offset
`contextWindow` before them to the offset `contextWindow` behind them. -/
theorem nilCheck_check_unguarded (options : Options) (source : List Char) :
    ∃ found, LeftmostMatches propertyAccessParts source 0 found ∧
      (∀ m ∈ found, ∃ window, m.span.widen options.contextWindow source.length = .ok window) ∧
      Rule.nilCheck.check options source =
        .ok (((found.map RegexMatch.span).filter fun span =>
            ¬ options.GuardNear source span).map fun span =>
          Catalogue.nilCheck.worded
            ("Consider adding nil check for expression: " ++ String.ofList (span.slice source))
            (some span)) := by
  obtain ⟨found, hfound, hspans⟩ := exists_leftmostMatches_propertyAccesses source
  refine ⟨found, hfound, fun m hm => ?_, ?_⟩
  · have hmem : m.span ∈ (propertyAccesses source).map Marker.span :=
      hspans ▸ List.mem_map_of_mem hm
    obtain ⟨access, haccess, hspan⟩ := List.mem_map.mp hmem
    have hstop : m.span.stop ≤ source.length :=
      hspan ▸ Kind.stop_le_of_mem_propertyAccesses haccess
    exact ⟨_, Span.widen_eq_ok hstop _⟩
  · have hunguarded : (propertyAccesses source).filter (fun m => !options.guards source m) =
        (propertyAccesses source).filter fun m => ¬ options.GuardNear source m.span := by
      refine List.filter_congr fun m hm => ?_
      rw [decide_not, ← Bool.decide_coe (options.guards source m)]
      simp only [Options.guards_iff (Kind.stop_le_of_mem_propertyAccesses hm)]
    have hcheck : Rule.nilCheck.check options source = _ :=
      Kind.nilCheck.check_rule options source
    rw [hcheck, Kind.findings, hunguarded, hspans, List.filter_map, List.map_map]
    refine congrArg _ (List.map_congr_left fun m hm => ?_)
    rw [Marker.unguarded, ← slice_of_mem_propertyAccesses (List.mem_of_mem_filter hm)]
    rfl

end TemplateLint
