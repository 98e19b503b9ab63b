import Formulary.Evaluation.Arithmetic
import Formulary.Evaluation.Math
import Formulary.Proofs.Decimal.Rounding
import Formulary.Proofs.Evaluation.Outcome

namespace Formulary

/-! Results of calculations depend on the numbers that go in and not on their scales. Where a
    calculation fails, the fault names its argument as written, so only its kind is the same. -/

open Decimal (Same)

namespace Calculator

variable {x x' y y' : Decimal}

theorem divide_congr (digits : ℕ) (left : Same x x') (right : Same y y') :
    Fault.Alike Same (Decimal.divide x y digits) (Decimal.divide x' y' digits) := by
  rw [left.divide right]
  cases Decimal.divide x' y' digits <;> rfl

theorem halve_congr (fuel : ℕ) (same : Same x x') :
    Same (halve fuel x).1 (halve fuel x').1 ∧ (halve fuel x).2 = (halve fuel x').2 := by
  induction fuel generalizing x x' with
  | zero => exact ⟨same, rfl⟩
  | succ fuel ih =>
    unfold halve
    rw [Same.less rfl same]
    split
    · have halved := ih (Same.mul same (rfl : Same Decimal.half Decimal.half))
      exact ⟨halved.1, congrArg (· + 1) halved.2⟩
    · exact ⟨same, rfl⟩

theorem series_congr {sum sum' term term' : Decimal} (working fuel n : ℕ) (same : Same x x')
    (sums : Same sum sum') (terms : Same term term') :
    Fault.Alike Same (series x working fuel n sum term) (series x' working fuel n sum' term') := by
  induction fuel generalizing n sum sum' term term' with
  | zero => exact sums
  | succ fuel ih =>
    unfold series
    rw [Same.quotient (terms.mul same) rfl]
    cases Decimal.quotient (term'.mul x') (Decimal.ofNat n) working with
    | error fault => rfl
    | ok next =>
      have added := (sums.add (rfl : Same next next)).withDigits working
      change Fault.Alike Same (if _ then _ else _) (if _ then _ else _)
      split
      · exact added
      · exact ih (n + 1) added rfl

theorem squarings_congr (working count : ℕ) (same : Same x x') :
    Same (squarings working count x) (squarings working count x') := by
  induction count generalizing x x' with
  | zero => exact same
  | succ count ih => exact ih ((same.mul same).withDigits working)

theorem expPositive_congr (digits : ℕ) (same : Same x x') :
    Fault.Alike Same (expPositive x digits) (expPositive x' digits) := by
  obtain ⟨reduced, halvings⟩ := halve_congr maxHalvings same
  unfold expPositive
  dsimp only
  rw [halvings]
  refine Matches.bind (series_congr _ maxSteps 1 reduced rfl rfl) ?_
  intro sum sum' sums
  exact (squarings_congr _ _ sums).withDigits digits

theorem expTo_congr (digits : ℕ) (same : Same x x') :
    Fault.Alike Same (expTo x digits) (expTo x' digits) := by
  unfold expTo
  rw [same.isZero, Same.less rfl same.abs, same.isNegative]
  dsimp only
  split
  · rfl
  · split
    · split
      · rfl
      · rfl
    · split
      · refine Matches.bind (expPositive_congr digits same.neg) ?_
        intro power power' powers
        exact divide_congr digits rfl powers
      · exact expPositive_congr digits same

theorem lnEstimate_congr (same : Same x x') :
    Fault.Alike Eq (lnEstimate x) (lnEstimate x') := by
  have reduced := Decimal.normalize_eq_iff.mpr same
  unfold lnEstimate
  rw [reduced]
  dsimp only
  split <;> rfl

theorem lnSteps_congr (working fuel : ℕ) (same : Same x x') (estimates : Same y y') :
    Fault.Alike Same (lnSteps x working fuel y) (lnSteps x' working fuel y') := by
  induction fuel generalizing y y' with
  | zero => exact estimates
  | succ fuel ih =>
    unfold lnSteps
    refine Matches.bind (expTo_congr working estimates) ?_
    intro power power' powers
    have change := Same.quotient (Same.mul (rfl : Same Decimal.two Decimal.two) (same.sub powers))
      (same.add powers) working
    rw [change]
    cases Decimal.quotient (Decimal.two.mul (x'.sub power')) (x'.add power') working with
    | error fault => rfl
    | ok change =>
      have improved := (estimates.add (rfl : Same change change)).withDigits working
      change Fault.Alike Same (if _ then _ else _) (if _ then _ else _)
      split
      · exact improved
      · exact ih improved

theorem lnTo_congr (digits : ℕ) (same : Same x x') :
    Fault.Alike Same (lnTo x digits) (lnTo x' digits) := by
  unfold lnTo
  rw [same.isPositive, same.isOne]
  dsimp only
  split
  · rfl
  · split
    · rfl
    · refine Matches.bind (lnEstimate_congr same) ?_
      rintro estimate _ rfl
      refine Matches.bind (lnSteps_congr _ maxSteps same rfl) ?_
      intro logarithm logarithm' logarithms
      exact logarithms.withDigits digits

/-- What products and cuts keep, repeated squaring keeps. -/
theorem powerLoop_related {related : Decimal → Decimal → Prop} {cut cut' : Decimal → Decimal}
    (products : ∀ {a a' b b'}, related a a' → related b b' → related (a.mul b) (a'.mul b'))
    (cuts : ∀ {d d'}, related d d' → related (cut d) (cut' d'))
    {result result' square square' : Decimal} (fuel exponent : ℕ) (results : related result result')
    (squares : related square square') :
    related (powerLoop cut fuel result square exponent)
      (powerLoop cut' fuel result' square' exponent) := by
  induction fuel generalizing result result' square square' exponent with
  | zero => exact results
  | succ fuel ih =>
    unfold powerLoop
    split
    · exact results
    · refine ih _ ?_ ?_
      · split
        · exact cuts (products results squares)
        · exact results
      · split
        · exact squares
        · exact cuts (products squares squares)

theorem integerPower_congr (n working : ℕ) (same : Same x x') :
    Same (integerPower x n working) (integerPower x' n working) :=
  powerLoop_related Same.mul (fun same => same.withDigits working) _ n rfl same

theorem integerExponent?_congr (same : Same y y') : integerExponent? y = integerExponent? y' := by
  unfold integerExponent?
  rw [same.isIntegral, Same.less rfl same.abs, same.toInt, same.beq rfl]

theorem powInteger_congr (calculator : Calculator) (same : Same x x') (n : ℤ) :
    Fault.Alike Same (calculator.powInteger x n) (calculator.powInteger x' n) := by
  have magnitude := integerPower_congr n.natAbs (calculator.digits + guardDigits) same
  unfold powInteger
  rw [same.isZero]
  dsimp only
  split
  · rfl
  · split
    · split
      · rfl
      · rfl
    · split
      · -- The quotients are the same down to their scales, and so are their cuts.
        rw [Same.divide (rfl : Same Decimal.one Decimal.one) magnitude]
        cases Decimal.divide Decimal.one (integerPower x' n.natAbs (calculator.digits + guardDigits))
          (calculator.digits + guardDigits) <;> rfl
      · exact Same.withDigits magnitude calculator.digits

theorem powReal_congr (calculator : Calculator) (bases : Same x x') (exponents : Same y y') :
    Fault.Alike Same (calculator.powReal x y) (calculator.powReal x' y') := by
  unfold powReal
  rw [bases.isZero, bases.isNegative, exponents.isNegative]
  dsimp only
  split
  · split
    · rfl
    · rfl
  · split
    · rfl
    · refine Matches.bind (lnTo_congr _ bases) ?_
      intro logarithm logarithm' logarithms
      exact expTo_congr _ ((exponents.mul logarithms).withDigits _)

theorem pow_congr (calculator : Calculator) (bases : Same x x') (exponents : Same y y') :
    Fault.Alike Same (calculator.pow x y) (calculator.pow x' y') := by
  unfold pow
  rw [integerExponent?_congr exponents]
  split
  · exact powInteger_congr calculator bases _
  · exact powReal_congr calculator bases exponents

/-- The way an exponent is written does not show in the result at all. -/
theorem powReal_exponent (calculator : Calculator) (x : Decimal) (exponents : Same y y') :
    Fault.Alike Eq (calculator.powReal x y) (calculator.powReal x y') := by
  unfold powReal
  rw [exponents.isNegative]
  dsimp only
  split
  · split
    · rfl
    · rfl
  · split
    · rfl
    · refine Matches.bind (Fault.Alike.refl _) ?_
      rintro logarithm _ rfl
      have products : Same (y.mul logarithm) (y'.mul logarithm) := exponents.mul rfl
      by_cases nothing : (y.mul logarithm).toRat = 0
      · have left := Decimal.toRat_withDigits_zero nothing (calculator.digits + guardDigits)
        have right := Decimal.toRat_withDigits_zero (products ▸ nothing)
          (calculator.digits + guardDigits)
        unfold expTo
        rw [if_pos (Decimal.isZero_iff.mpr left), if_pos (Decimal.isZero_iff.mpr right)]
        rfl
      · rw [Decimal.withDigits_eq nothing, Decimal.withDigits_eq (products ▸ nothing), products]
        exact Fault.Alike.refl _

theorem pow_exponent (calculator : Calculator) (x : Decimal) (exponents : Same y y') :
    Fault.Alike Eq (calculator.pow x y) (calculator.pow x y') := by
  unfold pow
  rw [integerExponent?_congr exponents]
  split
  · exact Fault.Alike.refl _
  · exact powReal_exponent calculator x exponents

theorem sqrt_congr (calculator : Calculator) (same : Same x x') :
    Fault.Alike Same (calculator.sqrt x) (calculator.sqrt x') := by
  unfold sqrt
  rw [same.isNegative, same.isZero]
  split
  · rfl
  · split
    · rfl
    · exact pow_congr calculator same rfl

/-- The extension of the factorial looks at the number only. -/
def Numeric (calculator : Calculator) : Prop :=
  ∀ gamma ∈ calculator.gamma, ∀ x x', Same x x' → Fault.Alike Same (gamma x) (gamma x')

theorem factorial_congr {calculator : Calculator} (numeric : calculator.Numeric)
    (same : Same x x') : Fault.Alike Same (calculator.factorial x) (calculator.factorial x') := by
  unfold factorial
  rw [same.isIntegral, same.isNegative, Same.less rfl same, same.toInt]
  split
  · split
    · rename_i gamma extended
      refine numeric gamma extended _ _ ?_
      rw [Same, Decimal.toRat_addAligned, Decimal.toRat_addAligned, same]
    · rfl
  · split
    · rfl
    · split
      · rfl
      · rfl

theorem arith_congr (calculator : Calculator) (op : Operator) (left : Same x x')
    (right : Same y y') :
    EvalError.Alike Same (calculator.arith op x y) (calculator.arith op x' y') := by
  cases op with
  | add => exact left.add right
  | sub => exact left.sub right
  | mul => exact left.mul right
  | div => exact .lift (divide_congr _ left right)
  | power => exact .lift (pow_congr calculator left right)
  | rem =>
    unfold arith
    rw [right.isZero]
    dsimp only
    split
    · rfl
    · exact left.rem right
  | _ => rfl

end Calculator

namespace MathFunction

variable {x x' y y' : Decimal}

theorem applyDecimal_congr (calculator : Calculator) (function : MathFunction)
    (same : Same x x') : Fault.Alike Same (function.applyDecimal calculator x)
      (function.applyDecimal calculator x') := by
  cases function with
  | exp => exact Calculator.expTo_congr _ same
  | ln => exact Calculator.lnTo_congr _ same
  | sqrt => exact Calculator.sqrt_congr calculator same
  | abs => exact same.abs
  | floor => exact same.floor
  | ceil => exact same.ceil
  | round => exact same.round
  | _ => rfl

theorem applyDecimals_congr (calculator : Calculator) (function : MathFunction)
    (left : Same x x') (right : Same y y') :
    Fault.Alike Same (function.applyDecimals calculator x y)
      (function.applyDecimals calculator x' y') := by
  cases function with
  | log =>
    unfold applyDecimals
    rw [left.isOne]
    dsimp only
    split
    · rfl
    · refine Matches.bind (Calculator.lnTo_congr _ right) ?_
      intro numerator numerator' numerators
      refine Matches.bind (Calculator.lnTo_congr _ left) ?_
      intro denominator denominator' denominators
      exact Calculator.divide_congr _ numerators denominators
  | min => exact left.smaller right
  | max => exact left.larger right
  | _ => rfl

end MathFunction

end Formulary
