import TemplateLint.Lint.Options
import TemplateLint.Report.Basic

/-!
# Rules

A `Rule` is an independent check of a template's text: it never sees what other rules found. The
rules a run uses may come from outside, so `checkRules` makes sure that each belongs to a pass and
reports under a code of that pass, and `orderByPass` arranges them: passes in their order, and
inside a pass the rules as they were given.
-/

namespace TemplateLint

open TemplateLint.Text

/-- Why a rule failed on a template. -/
inductive RuleError where
  /-- It described a place that is no span of text. -/
  | span (error : SpanError)
  /-- It left a hole of a wording open. -/
  | field (error : MissingField)
  /-- A rule from outside gave up for a reason of its own, of some kind and in its own words. -/
  | foreign (kind message : String)
  deriving DecidableEq

/-- The wording of each cause. -/
def RuleError.message : RuleError → String
  | .span error => error.message
  | .field error => error.name
  | .foreign _ message => message

/-- A check of a template's text. -/
structure Rule where
  name : String
  /-- The code under which it is switched on and off. -/
  code : String
  /-- Label of the pass it belongs to. -/
  category : String
  /-- What it finds in a template. -/
  check : Options → List Char → Except RuleError (List Diagnostic)

/-! ### Rules that report the same on every template -/

/-- A finding whose place has not been checked yet. -/
structure Draft where
  code : String
  message : String
  bounds : Option (Int × Int) := none
  severity : String := Severity.error.label
  hint : Option String := none
  category : Option String := none

/-- The finding of a draft, if its place is a span. -/
def Draft.build (draft : Draft) : Except SpanError Diagnostic := do
  let span ← draft.bounds.mapM fun (start, stop) => Span.ofBounds start stop
  return {
    code := draft.code
    message := draft.message
    span
    severity := draft.severity
    hint := draft.hint
    category := draft.category }

/-- The rule that reports fixed findings whatever the template. -/
def Rule.constant (name code category : String) (drafts : List Draft) : Rule where
  name := name
  code := code
  category := category
  check _ _ := drafts.mapM fun draft => draft.build.mapError .span

/-! ### Which rules fit together -/

/-- Why rules cannot be used. Each cause names the rule. -/
inductive RulesError where
  | invalidCategory (name category : String)
  | unknownCode (name code : String)
  /-- The rule's code belongs to another pass than the rule. -/
  | foreignCode (name code owner category : String)
  deriving DecidableEq

/-- The wording of each cause. -/
def RulesError.message : RulesError → String
  | .invalidCategory name category =>
    "Lint rule `" ++ name ++ "` has invalid category `" ++ category ++
      "`; expected syntax/convention/performance."
  | .unknownCode name code => "Lint rule `" ++ name ++ "` has unknown code `" ++ code ++ "`."
  | .foreignCode name code owner category =>
    "Lint rule `" ++ name ++ "` emits `" ++ code ++ "` which belongs to the `" ++ owner ++
      "` pass, not `" ++ category ++ "`."

/-- The first thing wrong with a rule. -/
def Rule.fault? (rule : Rule) : Option RulesError :=
  if (Pass.ofLabel? rule.category).isNone then some (.invalidCategory rule.name rule.category)
  else
    match Catalogue.find? rule.code with
    | none => some (.unknownCode rule.name rule.code)
    | some spec =>
      if spec.category = rule.category then none
      else some (.foreignCode rule.name rule.code spec.category rule.category)

/-- Refuses rules of which one cannot be used; the first such rule is named. -/
def checkRules (rules : List Rule) : Except RulesError Unit :=
  match rules.findSome? Rule.fault? with
  | some fault => .error fault
  | none => .ok ()

theorem checkRules_eq_ok_iff {rules : List Rule} :
    checkRules rules = .ok () ↔ ∀ rule ∈ rules, rule.fault? = none := by
  unfold checkRules
  split
  · next fault h =>
    obtain ⟨_, rule, _, hrules, hfault, -⟩ := List.findSome?_eq_some_iff.mp h
    simp only [reduceCtorEq, false_iff]
    intro hall
    have := hall rule (by simp [hrules])
    simp [this] at hfault
  · next h => simpa using h

/-! ### The order in which rules run -/

/-- The place of a rule's pass among the passes; a rule of no pass comes after all of them. -/
def Rule.rank (rule : Rule) : Nat :=
  (Pass.all.map Pass.label).idxOf rule.category

/-- The rules sorted by their passes; inside a pass they keep their places. -/
def orderByPass (rules : List Rule) : List Rule :=
  rules.mergeSort fun a b => decide (a.rank ≤ b.rank)

/-- A rule belongs to none of the passes. -/
structure UnknownPass where
  deriving DecidableEq

/-- The wording for a rule without a pass. -/
def UnknownPass.message (_ : UnknownPass) : String :=
  "tuple.index(x): x not in tuple"

/-- The rules in the order of their passes, if each of them belongs to one. -/
def order (rules : List Rule) : Except UnknownPass (List Rule) :=
  if rules.all fun rule => (Pass.ofLabel? rule.category).isSome then .ok (orderByPass rules)
  else .error ⟨⟩

end TemplateLint
