import Formulary.Decimal.Arithmetic
import Formulary.Decimal.Text
import Formulary.Binary.Machine

namespace Formulary

open scoped Powers

/-! Functions of decimals to a fixed number of significant digits. Every intermediate result
    carries a few digits more than the answer; series and iterations stop when the last
    change is below the working precision. The quotients inside them keep whatever scale they
    take: only a division that was asked for and a negative power are brought back to 64 bits. -/

/-- How many digits results have, and the extension of the factorial to fractions. -/
structure Calculator where
  digits : Nat
  gamma : Option (Decimal → Except Fault Decimal) := none
  digits_pos : 0 < digits

namespace Calculator

/-- A calculator for `digits` significant digits, and for one digit when none are asked for. -/
def ofDigits (digits : Nat) (gamma : Option (Decimal → Except Fault Decimal)) : Calculator :=
  ⟨max digits 1, gamma, by omega⟩

def standard : Calculator := ofDigits 50 none

instance : Inhabited Calculator := ⟨standard⟩

/-- Digits carried through intermediate computations beyond those of the result. -/
def guardDigits : Nat := 10

/-- Largest argument of the exponential function. -/
def maxExponential : Nat := 100000

/-- Largest integer exponent that is computed by repeated squaring. -/
def maxIntegerExponent : Nat := 1000000

def leastWord : Int := -2 ^ (63 : Nat)

def maxFactorial : Nat := 10000

/-- Limit on the terms of a series and the steps of an iteration. -/
def maxSteps : Nat := 200

/-- Halvings that bring every argument up to `maxExponential` below one half. -/
def maxHalvings : Nat := 18

/-- Halve until at most one half; also the number of halvings. -/
def halve : Nat → Decimal → Decimal × Nat
  | 0, x => (x, 0)
  | fuel + 1, x =>
    if Decimal.half.less x then
      let (reduced, count) := halve fuel (x.mul Decimal.half)
      (reduced, count + 1)
    else (x, 0)

/-- Terms of the exponential series from the `n`-th on, added to `sum`. -/
def series (x : Decimal) (working : Nat) :
    Nat → Nat → Decimal → Decimal → Except Fault Decimal
  | 0, _, sum, _ => .ok sum
  | fuel + 1, n, sum, term => do
    let term ← Decimal.quotient (term.mul x) (Decimal.ofNat n) working
    let sum := (sum.add term).withDigits working
    if term.abs.less (Decimal.unitAt working) then .ok sum
    else series x working fuel (n + 1) sum term

def squarings (working : Nat) : Nat → Decimal → Decimal
  | 0, x => x
  | count + 1, x => squarings working count ((x.mul x).withDigits working)

def expPositive (x : Decimal) (digits : Nat) : Except Fault Decimal := do
  let (reduced, halvings) := halve maxHalvings x
  let working := digits + guardDigits + halvings
  let sum ← series reduced working maxSteps 1 Decimal.one Decimal.one
  return (squarings working halvings sum).withDigits digits

def expTo (x : Decimal) (digits : Nat) : Except Fault Decimal := do
  if x.isZero then return Decimal.one
  if (Decimal.ofNat maxExponential).less x.abs then
    if x.isNegative then return Decimal.zero
    throw (.overflow ("exp(" ++ x.text ++ ")"))
  if x.isNegative then Decimal.divide Decimal.one (← expPositive x.neg digits) digits
  else expPositive x digits

/-- First approximation of the logarithm, from the leading seventeen digits. Zeros at the end do
    not count as digits. -/
def lnEstimate (x : Decimal) : Except Fault Decimal :=
  let reduced := x.normalize
  let digits := Digits.ofNat reduced.mantissa.natAbs
  let leading := digits.take 17
  let fraction := Float.ofScientific (Digits.value leading) true leading.length
  let decade : Int := digits.length - reduced.scale
  let estimate := fraction.log + Binary.ofInt64 decade * 2.302585092994046
  match (Binary.unpack64 estimate).toDecimal? with
  | some value => .ok value
  | none => .error (.invalidValue ("ln(" ++ x.text ++ ")"))

/-- Improve the logarithm `y` of `x` until the change is below the working precision. -/
def lnSteps (x : Decimal) (working : Nat) : Nat → Decimal → Except Fault Decimal
  | 0, y => .ok y
  | fuel + 1, y => do
    let e ← expTo y working
    let change ← Decimal.quotient (Decimal.two.mul (x.sub e)) (x.add e) working
    let y := (y.add change).withDigits working
    if change.abs.less (Decimal.unitAt working) then .ok y else lnSteps x working fuel y

def lnTo (x : Decimal) (digits : Nat) : Except Fault Decimal := do
  if !x.isPositive then throw (.domain ("ln(" ++ x.text ++ ")"))
  if x.isOne then return Decimal.zero
  let y ← lnSteps x (digits + guardDigits) maxSteps (← lnEstimate x)
  return y.withDigits digits

def exp (calculator : Calculator) (x : Decimal) : Except Fault Decimal := expTo x calculator.digits

def ln (calculator : Calculator) (x : Decimal) : Except Fault Decimal := lnTo x calculator.digits

/-- Multiply `result` by `square ^ exponent`, each product cut as the calculation asks for. -/
def powerLoop (cut : Decimal → Decimal) : Nat → Decimal → Decimal → Nat → Decimal
  | 0, result, _, _ => result
  | fuel + 1, result, square, exponent =>
    if exponent == 0 then result
    else
      let result := if exponent % 2 == 1 then cut (result.mul square) else result
      let exponent := exponent / 2
      let square := if exponent == 0 then square else cut (square.mul square)
      powerLoop cut fuel result square exponent

def integerPower (base : Decimal) (exponent working : Nat) : Decimal :=
  powerLoop (·.withDigits working) (exponent.log2 + 1) Decimal.one base exponent

/-- The exponent of a power that is computed by repeated squaring. The least word is one of them,
    because its absolute value goes round to itself and is not found too large. -/
def integerExponent? (y : Decimal) : Option Int :=
  if y.isIntegral && !(Decimal.ofNat maxIntegerExponent).less y.abs then some y.toInt
  else if y == Decimal.ofInt leastWord then some leastWord
  else none

def powInteger (calculator : Calculator) (x : Decimal) (n : Int) : Except Fault Decimal := do
  let working := calculator.digits + guardDigits
  if n == 0 then return Decimal.one
  if x.isZero then
    if n < 0 then throw .divisionByZero
    return Decimal.zero
  let magnitude := integerPower x n.natAbs working
  if n < 0 then
    let inverse ← Decimal.divide Decimal.one magnitude working
    return (inverse.withDigits calculator.digits).wrapped
  return magnitude.withDigits calculator.digits

/-- `x ^ y` by exponential and logarithm. -/
def powReal (calculator : Calculator) (x y : Decimal) : Except Fault Decimal := do
  let working := calculator.digits + guardDigits
  if x.isZero then
    if y.isNegative then throw .divisionByZero
    return Decimal.zero
  if x.isNegative then throw (.domain (x.text ++ " ^ " ++ y.text))
  let logarithm ← lnTo x working
  expTo ((y.mul logarithm).withDigits working) calculator.digits

def pow (calculator : Calculator) (x y : Decimal) : Except Fault Decimal :=
  match integerExponent? y with
  | some n => calculator.powInteger x n
  | none => calculator.powReal x y

def sqrt (calculator : Calculator) (x : Decimal) : Except Fault Decimal :=
  if x.isNegative then .error (.domain ("sqrt(" ++ x.text ++ ")"))
  else if x.isZero then .ok Decimal.zero
  else calculator.pow x Decimal.half

def factorialNat : Nat → Nat
  | 0 => 1
  | n + 1 => (n + 1) * factorialNat n

def factorial (calculator : Calculator) (x : Decimal) : Except Fault Decimal :=
  if !x.isIntegral then
    match calculator.gamma with
    | some gamma => gamma (x.addAligned Decimal.one)
    | none => .error (.notSupported ("factorial of non-integer " ++ x.text))
  else if x.isNegative then .error (.domain (x.text ++ "!"))
  else if (Decimal.ofNat maxFactorial).less x then .error (.overflow (x.text ++ "!"))
  else .ok (Decimal.ofNat (factorialNat x.toInt.toNat))

end Calculator

end Formulary
