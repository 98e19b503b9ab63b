import Formulary.Fault
import Formulary.Decimal.Basic

namespace Formulary.Decimal

open scoped Powers

/-! Exact arithmetic on decimals, with the scale rule of each operation, and division to a
    given number of significant digits. The scales of exact results are unbounded; division
    computes with scales in 64 bits. -/

/-- Sum at the larger scale. -/
def addAligned (a b : Decimal) : Decimal :=
  let (left, right, scale) := align a b
  ⟨left + right, scale⟩

/-- Most places by which adding a zero extends the scale of the other operand. -/
def zeroExtension : Nat := 15

/-- `d` with its scale moved towards `scale`, by at most `zeroExtension` places and never down. -/
def extendTowards (d : Decimal) (scale : Int) : Decimal :=
  d.rescale (d.scale + Min.min (scale - d.scale).toNat zeroExtension)

/-- Sum at the larger scale; a zero operand extends the other one within limits. -/
def add (a b : Decimal) : Decimal :=
  if b.isZero then a.extendTowards b.scale
  else if a.isZero then b.extendTowards a.scale
  else addAligned a b

/-- Difference at the larger scale. -/
def sub (a b : Decimal) : Decimal := addAligned a b.neg

/-- Product at the sum of the scales; a factor that is plainly one gives the other factor
    without trailing zeros. -/
def mul (a b : Decimal) : Decimal :=
  if a.isPlainOne then b.normalize
  else if b.isPlainOne then a.normalize
  else ⟨a.mantissa * b.mantissa, a.scale + b.scale⟩

/-- Remainder of truncated division, at the larger scale; it has the sign of `a`. -/
def rem (a b : Decimal) : Decimal :=
  let (left, right, scale) := align a b
  ⟨left.tmod right, scale⟩

/-- The quotient before it is rounded: with more than `digits` digits, the rest cut off. -/
def longQuotient (a b : Decimal) (digits : Nat) : Decimal :=
  let shift := digits + b.digitCount + 1 - a.digitCount
  ⟨(a.mantissa * (10 ^ shift : Nat)).tdiv b.mantissa, a.scale - b.scale + shift⟩

/-- `a / b` with `digits` significant digits, at whatever scale they take. -/
def quotient (a b : Decimal) (digits : Nat) : Except Fault Decimal :=
  if b.isZero then .error .divisionByZero
  else if a.isZero then .ok zero
  else .ok ((longQuotient a b digits).withDigits digits)

/-- The scale as a word of 64 bits keeps it. -/
def wrapped (d : Decimal) : Decimal := ⟨d.mantissa, d.scale.bmod (2 ^ (64 : Nat))⟩

/-- `a / b` with `digits` significant digits. The scale is computed in words and goes round where
    it does not fit. -/
def divide (a b : Decimal) (digits : Nat) : Except Fault Decimal :=
  (quotient a b digits).map wrapped

def floor (d : Decimal) : Decimal :=
  let whole := d.truncate
  if d.isNegative && !(whole == d) then whole.sub one else whole

def ceil (d : Decimal) : Decimal := d.neg.floor.neg

/-- Nearest integer, halves away from zero. -/
def round (d : Decimal) : Decimal :=
  if d.isNegative then (d.neg.addAligned half).floor.neg else (d.add half).floor

end Formulary.Decimal
