import Mathlib.Data.List.TakeWhile
import TemplateLint.CommandLine.Interface
import TemplateLint.Proofs.Failures

/-!
# What reading arguments preserves

Arguments are read step by step: an option changes the settings by its action, a run of operands
by storing them. A property of settings that every such step preserves (`Interface.Preserves`)
holds of whatever arguments describe (`Interface.Preserves.parse`); no other option than those of
the interface is ever carried out. Arguments that begin with no dash are all operands, and an
interface with several operands stores them as they stand (`Interface.parse_operands`).
-/

namespace TemplateLint.CommandLine

variable {σ : Type} {P : σ → Prop} {interface : Interface σ} {switch : Switch σ}
  {settings result : σ}

/-! ### Options of an interface -/

/-- The effect of an option keeps a property of the settings. -/
def Action.Preserves (P : σ → Prop) : Action σ → Prop
  | .help => True
  | .flag set => ∀ settings, P settings → P (set settings)
  | .value read blank =>
    (∀ value set, read value = .ok set → ∀ settings, P settings → P (set settings)) ∧
      ∀ settings, P settings → P (blank settings)

/-- An option that stands in a token is one of the interface. -/
def Token.Known (interface : Interface σ) : Token σ → Prop
  | .switch switch _ _ => switch ∈ interface.switches
  | _ => True

namespace Interface

/-- Whatever can be read keeps a property of the settings. -/
structure Preserves (interface : Interface σ) (P : σ → Prop) : Prop where
  action : ∀ switch ∈ interface.switches, switch.action.Preserves P
  store : ∀ operands settings, P settings → P (interface.store operands settings)

private theorem mem_switches_of_mem_spellings {spelling : String}
    (h : (spelling, switch) ∈ interface.spellings) : switch ∈ interface.switches := by
  obtain ⟨known, hknown, hmem⟩ := List.mem_flatMap.mp h
  obtain ⟨_, -, heq⟩ := List.mem_map.mp hmem
  cases heq
  exact hknown

private theorem mem_switches_of_switch? {spelling : String}
    (h : interface.switch? spelling = some switch) :
    switch ∈ interface.switches := by
  obtain ⟨before, later, hspellings, -⟩ := List.lookup_eq_some_iff.mp h
  have hmem : (spelling, switch) ∈ interface.spellings := by simp [hspellings]
  exact mem_switches_of_mem_spellings hmem

private theorem mem_switches_of_mem_readings {argument : List Char} {spelling : String}
    {attached : Option (List Char)}
    (h : (spelling, switch, attached) ∈ interface.readings argument) :
    switch ∈ interface.switches := by
  unfold readings at h
  split at h
  · obtain ⟨⟨known, found⟩, hmem, heq⟩ := List.mem_filterMap.mp h
    grind [mem_switches_of_mem_spellings]
  · obtain ⟨⟨known, found⟩, hmem, heq⟩ := List.mem_filterMap.mp h
    grind [mem_switches_of_mem_spellings]
  · simp at h

private theorem known_of_token {argument : String} {token : Token σ}
    (h : interface.token argument = .ok token) : token.Known interface := by
  simp only [Interface.token] at h
  split at h
  · cases h; trivial
  · split at h
    · next hswitch => cases h; exact mem_switches_of_switch? hswitch
    · split at h
      · cases h; trivial
      · split at h
        · next hswitch _ => cases h; exact mem_switches_of_switch? hswitch
        · split at h
          · next hreadings =>
            cases h
            exact mem_switches_of_mem_readings (hreadings ▸ List.mem_singleton_self _)
          · cases h
          · cases h
            split <;> trivial

private theorem known_of_classify {arguments : List String} {tokens : List (String × Token σ)}
    (h : interface.classify arguments = .ok tokens) :
    ∀ entry ∈ tokens, entry.2.Known interface := by
  induction arguments generalizing tokens with
  | nil =>
    cases h
    simp
  | cons argument arguments ih =>
    unfold classify at h
    split at h
    · cases h
      simp [Token.Known]
    · obtain ⟨token, htoken, h⟩ := bind_eq_ok_iff.mp h
      obtain ⟨later, hlater, h⟩ := bind_eq_ok_iff.mp h
      cases h
      exact List.forall_mem_cons.mpr ⟨known_of_token htoken, ih hlater⟩

/-- Taking an argument apart gives options of the interface. -/
private theorem mem_switches_of_cluster {flags : List (Switch σ)} {short : Bool} {text : List Char}
    {found : Cluster σ} (hflags : ∀ flag ∈ flags, flag ∈ interface.switches)
    (hswitch : switch ∈ interface.switches)
    (h : interface.cluster flags switch short text = .ok found) :
    (∀ flag ∈ found.flags, flag ∈ interface.switches) ∧ found.last ∈ interface.switches := by
  fun_induction Interface.cluster interface flags switch short text with
  | case1 flags switch short text htakes =>
    cases h
    exact ⟨hflags, hswitch⟩
  | case2 => cases h
  | case3 flags switch htakes c rest next hnext hrest =>
    cases h
    refine ⟨?_, mem_switches_of_switch? hnext⟩
    exact List.forall_mem_append.mpr ⟨hflags, List.forall_mem_singleton.mpr hswitch⟩
  | case4 flags switch htakes c rest next hnext hrest ih =>
    refine ih ?_ (mem_switches_of_switch? hnext) h
    exact List.forall_mem_append.mpr ⟨hflags, List.forall_mem_singleton.mpr hswitch⟩
  | case5 => cases h

private theorem mem_switches_of_clusterOf {spelling : String} {attached : Option (List Char)}
    {found : Cluster σ} (hswitch : switch ∈ interface.switches)
    (h : interface.clusterOf switch spelling attached = .ok found) :
    (∀ flag ∈ found.flags, flag ∈ interface.switches) ∧ found.last ∈ interface.switches := by
  cases attached with
  | none =>
    cases h
    exact ⟨by simp, hswitch⟩
  | some text => exact mem_switches_of_cluster (by simp) hswitch h

private theorem suffix_of_valueFor {tokens later : List (String × Token σ)} {value : String}
    (h : valueFor switch tokens = .ok (value, later)) : later <:+ tokens := by
  unfold valueFor at h
  split at h
  · split at h
    · cases h
      exact List.suffix_cons _ _
    · cases h
  · cases h
    exact List.suffix_rfl

/-! ### One step -/

private theorem perform_preserves {value : String} (hswitch : switch.action.Preserves P)
    (hsettings : P settings) (h : perform switch value settings = .ok result) : P result := by
  unfold perform at h
  split at h
  · cases h
  · next set hset =>
    cases h
    rw [hset] at hswitch
    exact hswitch settings hsettings
  · next read blank hread =>
    rw [hread] at hswitch
    obtain ⟨hvalue, hblank⟩ := hswitch
    split at h
    · cases h
      exact hblank settings hsettings
    · split at h
      · next set hset =>
        cases h
        exact hvalue value set hset settings hsettings
      · cases h
      · cases h

private theorem performAll_preserves {flags : List (Switch σ)}
    (hflags : ∀ flag ∈ flags, flag.action.Preserves P) (hsettings : P settings)
    (h : performAll flags settings = .ok result) : P result := by
  induction flags generalizing settings with
  | nil =>
    cases h
    exact hsettings
  | cons flag flags ih =>
    obtain ⟨hflag, hflags⟩ := List.forall_mem_cons.mp hflags
    rw [performAll, List.foldlM_cons] at h
    obtain ⟨next, hnext, h⟩ := bind_eq_ok_iff.mp h
    exact ih hflags (perform_preserves hflag hsettings hnext) h

variable {state final : State σ} {later : List (String × Token σ)}

theorem Preserves.takeOption (hP : interface.Preserves P) {spelling : String}
    {attached : Option (List Char)}
    {rest : { rest : List (String × Token σ) // rest.length ≤ later.length }}
    (hswitch : switch ∈ interface.switches) (hstate : P state.settings)
    (h : interface.takeOption switch spelling attached later state = .ok (final, rest)) :
    P final.settings ∧ rest.val <:+ later := by
  unfold Interface.takeOption at h
  obtain ⟨found, hfound, h⟩ := bind_eq_ok_iff.mp h
  obtain ⟨hflags, hlast⟩ := mem_switches_of_clusterOf hswitch (mapError_eq_ok_iff.mp hfound)
  -- with a value attached or without, the options in the argument are carried out in turn
  have hturn {value : String} {between result : σ}
      (hbetween : performAll found.flags state.settings = .ok between)
      (hresult : perform found.last value between = .ok result) : P result := by
    have hbetween : P between :=
      performAll_preserves (fun flag hflag => hP.action flag (hflags flag hflag)) hstate hbetween
    exact perform_preserves (hP.action _ hlast) hbetween hresult
  split at h
  · obtain ⟨between, hbetween, h⟩ := bind_eq_ok_iff.mp h
    obtain ⟨result, hresult, h⟩ := bind_eq_ok_iff.mp h
    cases h
    exact ⟨hturn hbetween hresult, List.suffix_rfl⟩
  · split at h
    · cases h
    · next hvalue =>
      obtain ⟨between, hbetween, h⟩ := bind_eq_ok_iff.mp h
      obtain ⟨result, hresult, h⟩ := bind_eq_ok_iff.mp h
      cases h
      exact ⟨hturn hbetween hresult, suffix_of_valueFor hvalue⟩

theorem Preserves.takeRun (hP : interface.Preserves P) (run : List (String × Token σ))
    (hstate : P state.settings) : P (interface.takeRun run state).settings := by
  simp only [Interface.takeRun]
  generalize (if state.supplied then 0 else interface.operandCount run) = count
  split
  · exact hstate
  · exact hP.store _ _ hstate

/-! ### All arguments -/

theorem Preserves.read (hP : interface.Preserves P) {tokens : List (String × Token σ)}
    (htokens : ∀ entry ∈ tokens, entry.2.Known interface) (hstate : P state.settings)
    (h : interface.read tokens state = .ok final) : P final.settings := by
  fun_induction Interface.read interface tokens state with
  | case1 state =>
    cases h
    exact hstate
  | case2 => cases h
  | case3 state _ switch spelling attached later next rest hlength htake ih =>
    obtain ⟨hswitch, hlater⟩ := List.forall_mem_cons.mp htokens
    obtain ⟨hnext, hrest⟩ := hP.takeOption hswitch hstate htake
    exact ih (fun entry hentry => hlater entry (hrest.subset hentry)) hnext h
  | case4 state argument later ih =>
    exact ih (List.forall_mem_cons.mp htokens).2 hstate h
  | case5 state first later _ _ isPlain ih =>
    refine ih (fun entry hentry => ?_) (hP.takeRun _ hstate) h
    exact htokens entry (List.mem_cons_of_mem _ ((List.dropWhile_suffix _).subset hentry))

/-- **What every step preserves, reading arguments preserves.** -/
theorem Preserves.parse (hP : interface.Preserves P) {arguments : List String}
    (hinitial : P settings) (h : interface.parse settings arguments = .ok result) : P result := by
  unfold Interface.parse at h
  obtain ⟨tokens, htokens, h⟩ := bind_eq_ok_iff.mp h
  obtain ⟨state, hstate, h⟩ := bind_eq_ok_iff.mp h
  have htokens := known_of_classify (mapError_eq_ok_iff.mp htokens)
  have hstate : P state.settings := hP.read htokens hinitial hstate
  split at h
  · cases h
  · split at h
    · cases h
    · cases h
      exact hstate

/-! ### Arguments without options -/

private theorem classify_operands {arguments : List String}
    (hdash : ∀ argument ∈ arguments, argument.toList.head? ≠ some '-') :
    interface.classify arguments = .ok (arguments.map (·, .operand)) := by
  induction arguments with
  | nil => rfl
  | cons argument arguments ih =>
    obtain ⟨hargument, harguments⟩ := List.forall_mem_cons.mp hdash
    have hseparator : argument ≠ "--" := by
      rintro rfl
      exact hargument rfl
    have htoken : interface.token argument = .ok .operand := by
      rw [Interface.token, if_pos hargument]
    rw [classify, if_neg hseparator, htoken, ih harguments]
    rfl

/-- Where there may be several operands, they are taken all at once. -/
private theorem takeRun_operands (hrepeated : interface.repeated) {arguments : List String}
    (hne : arguments ≠ []) (hseparator : "--" ∉ arguments) :
    interface.takeRun (arguments.map (·, .operand)) ⟨settings, false, []⟩ =
      ⟨interface.store arguments settings, true, []⟩ := by
  have hcount : interface.operandCount (arguments.map (·, .operand)) = arguments.length := by
    obtain ⟨first, more, rfl⟩ := List.exists_cons_of_ne_nil hne
    simp [operandCount, Token.isSeparator, hrepeated]
  have htexts : (arguments.map fun argument => (argument, (.operand : Token σ))).map Prod.fst =
      arguments := by
    simp [Function.comp_def]
  simp [Interface.takeRun, hcount, htexts, hne, List.erase_of_not_mem hseparator]

/-- Arguments that begin with no dash are stored as they stand. -/
theorem parse_operands (hrepeated : interface.repeated) {arguments : List String}
    (hne : arguments ≠ [])
    (hdash : ∀ argument ∈ arguments, argument.toList.head? ≠ some '-') :
    interface.parse settings arguments = .ok (interface.store arguments settings) := by
  have hseparator : "--" ∉ arguments := fun h => hdash "--" h rfl
  -- no option ends the run of operands, so one run is all there is
  have hread : interface.read (arguments.map (·, .operand)) ⟨settings, false, []⟩ =
      .ok ⟨interface.store arguments settings, true, []⟩ := by
    rw [← takeRun_operands hrepeated hne hseparator]
    obtain ⟨first, more, rfl⟩ := List.exists_cons_of_ne_nil hne
    have hplain : ∀ entry ∈ more.map fun argument => (argument, (.operand : Token σ)),
        !entry.2.isOption := by
      simp [Token.isOption]
    rw [List.map_cons, Interface.read, List.dropWhile_eq_nil_iff.mpr hplain,
      List.takeWhile_eq_self_iff.mpr hplain, Interface.read]
    · simp
    · simp
  rw [Interface.parse, classify_operands hdash]
  simp [Except.mapError, bind, Except.bind, hread]

end Interface

end TemplateLint.CommandLine
