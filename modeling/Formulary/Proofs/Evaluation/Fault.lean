import Formulary.Evaluation.Math
import Formulary.Proofs.Evaluation.Outcome

namespace Formulary

/-! Faults that say that a value has the wrong type, and the operations that never give one. -/

def Fault.isTypeError : Fault → Bool
  | typeError _ | invalidOperation _ => true
  | _ => false

def EvalError.isTypeError : EvalError → Bool
  | typeError _ => true
  | fault cause => cause.isTypeError
  | _ => false

/-- The outcome is a value, or a fault other than a type error. -/
abbrev TypeErrorFree (outcome : Except Fault α) : Prop :=
  Settles (fun _ => True) (fun cause => cause.isTypeError = false) outcome

namespace TypeErrorFree

theorem bind {outcome : Except Fault α} {next : α → Except Fault β} (first : TypeErrorFree outcome)
    (continued : ∀ a, TypeErrorFree (next a)) : TypeErrorFree (outcome >>= next) :=
  Settles.bind first fun a _ => continued a

theorem ok (a : α) : TypeErrorFree (.ok a) := trivial

theorem quotient (a b : Decimal) (digits : Nat) : TypeErrorFree (Decimal.quotient a b digits) := by
  unfold Decimal.quotient
  split
  · rfl
  · split <;> trivial

theorem divide (a b : Decimal) (digits : Nat) : TypeErrorFree (Decimal.divide a b digits) :=
  .map (quotient a b digits) fun _ _ => trivial

theorem series (x : Decimal) (working fuel n : Nat) (sum term : Decimal) :
    TypeErrorFree (Calculator.series x working fuel n sum term) := by
  induction fuel generalizing n sum term with
  | zero => trivial
  | succ fuel ih =>
    unfold Calculator.series
    refine bind (quotient _ _ _) fun term => ?_
    dsimp only
    split
    · trivial
    · exact ih _ _ _

theorem expPositive (x : Decimal) (digits : Nat) : TypeErrorFree (Calculator.expPositive x digits) :=
  bind (series _ _ _ _ _ _) fun _ => ok _

theorem expTo (x : Decimal) (digits : Nat) : TypeErrorFree (Calculator.expTo x digits) := by
  unfold Calculator.expTo
  dsimp only
  split
  · trivial
  · split
    · split
      · trivial
      · rfl
    · split
      · exact bind (expPositive _ _) fun positive => divide _ _ _
      · exact expPositive _ _

theorem lnEstimate (x : Decimal) : TypeErrorFree (Calculator.lnEstimate x) := by
  unfold Calculator.lnEstimate
  dsimp only
  split <;> trivial

theorem lnSteps (x : Decimal) (working fuel : Nat) (y : Decimal) :
    TypeErrorFree (Calculator.lnSteps x working fuel y) := by
  induction fuel generalizing y with
  | zero => trivial
  | succ fuel ih =>
    unfold Calculator.lnSteps
    refine bind (expTo _ _) fun e => bind (quotient _ _ _) fun change => ?_
    dsimp only
    split
    · trivial
    · exact ih _

theorem lnTo (x : Decimal) (digits : Nat) : TypeErrorFree (Calculator.lnTo x digits) := by
  unfold Calculator.lnTo
  dsimp only
  split
  · rfl
  · split
    · trivial
    · exact bind (lnEstimate _) fun start => bind (lnSteps _ _ _ _) fun y => ok _

variable (calculator : Calculator)

theorem powInteger (x : Decimal) (n : Int) : TypeErrorFree (calculator.powInteger x n) := by
  unfold Calculator.powInteger
  dsimp only
  split
  · trivial
  · split
    · split
      · rfl
      · trivial
    · split
      · exact bind (divide _ _ _) fun result => ok _
      · trivial

theorem powReal (x y : Decimal) : TypeErrorFree (calculator.powReal x y) := by
  unfold Calculator.powReal
  dsimp only
  split
  · split
    · rfl
    · trivial
  · split
    · rfl
    · exact bind (lnTo _ _) fun logarithm => expTo _ _

theorem pow (x y : Decimal) : TypeErrorFree (calculator.pow x y) := by
  unfold Calculator.pow
  split
  · exact powInteger calculator _ _
  · exact powReal calculator _ _

theorem sqrt (x : Decimal) : TypeErrorFree (calculator.sqrt x) := by
  unfold Calculator.sqrt
  split
  · rfl
  · split
    · trivial
    · exact pow calculator _ _

/-- A type error of the factorial comes from its extension to fractions. -/
theorem factorial (x : Decimal) :
    Settles (fun _ => True)
      (fun cause => cause.isTypeError → x.isIntegral = false ∧
        ∃ gamma, calculator.gamma = some gamma ∧ gamma (x.addAligned Decimal.one) = .error cause)
      (calculator.factorial x) := by
  unfold Calculator.factorial
  split
  · rename_i fraction
    split
    · rename_i gamma extended
      cases given : gamma (x.addAligned Decimal.one) with
      | ok result => trivial
      | error cause => exact fun _ => ⟨by simpa using fraction, gamma, extended, given⟩
    · exact nofun
  · split
    · exact nofun
    · split
      · exact nofun
      · trivial

end TypeErrorFree

end Formulary
