import TemplateLint.CommandLine.Interface
import TemplateLint.Files.Template
import TemplateLint.Lint.Session

/-!
# Outcomes of commands

A command that ends in an orderly way has an exit status and what it wrote. It breaks off when the
file system refuses to answer a question, a template cannot be judged, or an option was left blank
without which the work cannot be done. Then it has no exit status of its own, but what it has
written by then stays written: a `Course` has both.
-/

namespace TemplateLint.CommandLine

open TemplateLint.Files

/-- How a command ended, and what it wrote. -/
structure Outcome where
  status : Nat
  output : String := ""
  errors : String := ""
  deriving DecidableEq

/-- Why a command broke off. -/
inductive Breakdown where
  | pathTooLong (error : PathTooLong)
  | load (failure : LoadFailure)
  | lint (error : LintError)
  /-- A code is to be switched off, but it was left blank. -/
  | blankCode
  /-- How often to do something was left blank. -/
  | blankCount
  deriving DecidableEq

/-- The wording of each cause. -/
def Breakdown.message : Breakdown → String
  | .pathTooLong error => error.message
  | .load failure => failure.message
  | .lint error => error.message
  | .blankCode => "unhashable type: 'list'"
  | .blankCount => "'>' not supported between instances of 'int' and 'list'"

/-! ### Commands at work -/

/-- How far a command came: the status it had come to, what it had written, and what broke it off,
if anything did. -/
structure Course where
  outcome : Outcome
  breakdown : Option Breakdown := none

namespace Course

/-- How the command ended, unless something broke it off. -/
def ending (course : Course) : Except Breakdown Outcome :=
  match course.breakdown with
  | none => .ok course.outcome
  | some breakdown => .error breakdown

theorem ending_eq_error_iff {course : Course} {breakdown : Breakdown} :
    course.ending = .error breakdown ↔ course.breakdown = some breakdown := by
  unfold ending
  cases course.breakdown <;> simp

/-- What a command goes on to do, unless something has broken it off. -/
def andThen (course : Course) (next : Outcome → Course) : Course :=
  match course.breakdown with
  | none => next course.outcome
  | some _ => course

/-- One step for each member of a list, each going on from what the one before it came to. -/
def inTurn {α : Type} (step : α → Outcome → Course) : List α → Outcome → Course
  | [], outcome => { outcome }
  | a :: later, outcome => (step a outcome).andThen (inTurn step later)

/-- The course of a command that writes nothing before its end. -/
def atOnce : Except Breakdown Outcome → Course
  | .ok outcome => { outcome }
  | .error breakdown => { outcome := { status := 0 }, breakdown }

theorem ending_atOnce (result : Except Breakdown Outcome) : (atOnce result).ending = result := by
  cases result <;> rfl

section InTurn

variable {α : Type} {step : α → Outcome → Course} {result : α → Outcome → Outcome}

/-- Steps that nothing breaks off pass their outcomes on. -/
theorem inTurn_eq {l : List α} (h : ∀ a ∈ l, ∀ outcome, step a outcome = ⟨result a outcome, none⟩)
    (outcome : Outcome) :
    inTurn step l outcome = ⟨l.foldl (fun outcome a => result a outcome) outcome, none⟩ := by
  induction l generalizing outcome with
  | nil => rfl
  | cons a l ih =>
    obtain ⟨ha, hl⟩ := List.forall_mem_cons.mp h
    rw [inTurn, ha, List.foldl_cons, ← ih hl]
    rfl

theorem inTurn_append (first second : List α) (outcome : Outcome) :
    inTurn step (first ++ second) outcome =
      (inTurn step first outcome).andThen (inTurn step second) := by
  induction first generalizing outcome with
  | nil => rfl
  | cons a first ih =>
    rw [List.cons_append, inTurn, inTurn]
    unfold andThen
    cases hstep : (step a outcome).breakdown with
    | none => exact ih _
    | some breakdown => simp only [hstep]

/-- If it does not depend on the outcome so far what breaks a step off, the first step that
something breaks off ends the course. -/
theorem breakdown_inTurn {obstacle : α → Option Breakdown} {l : List α}
    (h : ∀ a ∈ l, ∀ outcome, (step a outcome).breakdown = obstacle a) (outcome : Outcome) :
    (inTurn step l outcome).breakdown = l.findSome? obstacle := by
  induction l generalizing outcome with
  | nil => rfl
  | cons a l ih =>
    obtain ⟨ha, hl⟩ := List.forall_mem_cons.mp h
    rw [inTurn, andThen, ha, List.findSome?_cons]
    cases hobstacle : obstacle a with
    | none => exact ih hl _
    | some breakdown => exact (ha outcome).trans hobstacle

end InTurn

end Course

/-! ### Reading arguments -/

/-- The end of a command whose arguments were not read to their end: help goes to the output and
is no failure, a complaint follows the usage among the errors. -/
def Interface.ending {σ : Type} (interface : Interface σ) : Stop → Outcome
  | .help => { status := 0, output := interface.usage ++ interface.manual }
  | .usage error =>
    { status := 2
      errors := interface.usage ++ interface.program ++ ": error: " ++ error.message ++ "\n" }

/-- Reads the arguments of a command and carries it out. -/
def Interface.dispatch {σ : Type} (interface : Interface σ) (initial : σ)
    (arguments : List String) (carryOut : σ → Course) : Course :=
  match interface.parse initial arguments with
  | .error stop => { outcome := interface.ending stop }
  | .ok settings => carryOut settings

end TemplateLint.CommandLine
