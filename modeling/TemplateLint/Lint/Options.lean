import TemplateLint.Diagnostic.Catalogue

/-!
# Options of the linter

`Options` holds the thresholds of the heuristic rules and the codes that are switched off; its
values are always usable. `Settings` is what a caller asks for, and `Options.ofSettings` turns it
into options or says what is wrong with it. Codes are switched off one after the other with
`Options.withDisabled`, which never switches a code on again.
-/

namespace TemplateLint

/-- Thresholds of the heuristic rules and the codes that are switched off. -/
structure Options where
  /-- How far around a property access a guard is looked for. -/
  contextWindow : Nat := 200
  /-- What counts as a guard. -/
  guardTokens : List String := ["if ", "unless "]
  /-- An expression is repeated if it occurs more often than this. -/
  repeatCount : Nat := 3
  /-- Repetition matters for expressions longer than this. -/
  repeatLength : Nat := 20
  /-- Texts that show a large collection being measured. -/
  largeCollectionMarkers : List String := ["products | size()"]
  /-- Texts that show a whole collection being asked for. -/
  quantifierMarkers : List String := ["all "]
  /-- The codes that are switched off. -/
  disabled : List Kind := []
  /-- They stand in the order of the catalogue and none stands twice. -/
  disabled_sublist : disabled.Sublist Kind.all := by exact List.nil_sublist _

/-- What a caller asks for. -/
structure Settings where
  contextWindow : Int := 200
  guardTokens : List String := ["if ", "unless "]
  repeatCount : Int := 3
  repeatLength : Int := 20
  largeCollectionMarkers : List String := ["products | size()"]
  quantifierMarkers : List String := ["all "]
  /-- The codes to be switched off, as they are written. -/
  disabled : List String := []

/-- Why settings are no options. -/
inductive OptionsError where
  | negativeWindow
  | negativeThreshold
  /-- Codes that the catalogue does not have, each once and in order. -/
  | unknownCodes (codes : List String)
  deriving DecidableEq

/-- The wording of each cause. -/
def OptionsError.message : OptionsError → String
  | .negativeWindow => "context_window cannot be negative"
  | .negativeThreshold => "repeated expression thresholds cannot be negative"
  | .unknownCodes codes =>
    "Cannot disable unknown diagnostic code(s): " ++ String.intercalate ", " codes

namespace Options

/-- The codes that the catalogue does not have, each once and in the order of their characters. -/
def unknownCodes (codes : List String) : List String :=
  (codes.filter fun code => (Kind.ofCode? code).isNone).eraseDups.mergeSort
    fun a b => decide (a ≤ b)

/-- Whether the rules for a code run. -/
def isEnabled (options : Options) (code : String) : Bool :=
  !options.disabled.any fun kind => kind.code == code

/-- The codes that are switched off, as they are written. -/
def disabledCodes (options : Options) : List String :=
  options.disabled.map Kind.code

/-- The options with the codes of a list switched off as well. -/
def without (options : Options) (codes : List String) : Options :=
  { options with
    disabled := Kind.all.filter fun kind => options.disabled.contains kind ||
      codes.contains kind.code
    disabled_sublist := List.filter_sublist }

/-- The options with more codes switched off. Codes that do not exist are refused together. -/
def withDisabled (options : Options) (codes : List String) : Except OptionsError Options :=
  let unknown := unknownCodes codes
  if unknown.isEmpty then .ok (options.without codes) else .error (.unknownCodes unknown)

/-- The options that settings describe. A negative window is reported before a negative
threshold, and both before unknown codes. -/
def ofSettings (settings : Settings) : Except OptionsError Options :=
  if settings.contextWindow < 0 then .error .negativeWindow
  else if settings.repeatCount < 0 ∨ settings.repeatLength < 0 then .error .negativeThreshold
  else
    let options : Options :=
      { contextWindow := settings.contextWindow.toNat
        guardTokens := settings.guardTokens
        repeatCount := settings.repeatCount.toNat
        repeatLength := settings.repeatLength.toNat
        largeCollectionMarkers := settings.largeCollectionMarkers
        quantifierMarkers := settings.quantifierMarkers }
    options.withDisabled settings.disabled

end Options

end TemplateLint
