import Formulary.Decimal.Digits

namespace Formulary

open scoped Powers

/-! A decimal is an integer mantissa with a scale: the number of digits behind the point.
    The scale is visible in the written form, so each operation fixes the scale of its
    result; equality and order look only at the number that is denoted. -/

/-- The number `mantissa * 10 ^ (-scale)`. -/
structure Decimal where
  mantissa : Int
  scale : Int
deriving Inhabited

namespace Decimal

def ofInt (n : Int) : Decimal := ⟨n, 0⟩

def ofNat (n : Nat) : Decimal := ⟨n, 0⟩

def ofBool (b : Bool) : Decimal := ofInt (if b then 1 else 0)

def zero : Decimal := ⟨0, 0⟩

def one : Decimal := ⟨1, 0⟩

def two : Decimal := ⟨2, 0⟩

def half : Decimal := ⟨5, 1⟩

/-- `10 ^ (-places)`. -/
def unitAt (places : Nat) : Decimal := ⟨1, places⟩

def isZero (d : Decimal) : Bool := d.mantissa == 0

def isNegative (d : Decimal) : Bool := d.mantissa < 0

def isPositive (d : Decimal) : Bool := 0 < d.mantissa

/-- Significant digits of the mantissa as it is stored. -/
def digitCount (d : Decimal) : Nat := Digits.length d.mantissa.natAbs

def neg (d : Decimal) : Decimal := ⟨-d.mantissa, d.scale⟩

def abs (d : Decimal) : Decimal := ⟨d.mantissa.natAbs, d.scale⟩

/-- Same number with `scale` digits behind the point; digits that do not fit are cut off. -/
def rescale (d : Decimal) (scale : Int) : Decimal :=
  if d.mantissa = 0 then ⟨0, scale⟩
  else if d.scale ≤ scale then ⟨d.mantissa * (10 ^ (scale - d.scale).toNat : Nat), scale⟩
  else ⟨d.mantissa.tdiv (10 ^ (d.scale - scale).toNat : Nat), scale⟩

/-- The integer part, with scale zero. -/
def truncate (d : Decimal) : Decimal := d.rescale 0

/-- The integer part as an integer. -/
def toInt (d : Decimal) : Int := d.truncate.mantissa

/-- The form without trailing zeros, unique for each number. -/
def normalize (d : Decimal) : Decimal :=
  let (stripped, count) := Digits.stripZeros d.mantissa.natAbs
  if stripped = 0 then zero else ⟨d.mantissa.sign * stripped, d.scale - count⟩

/-- Whether two decimals denote the same number. -/
def equal (a b : Decimal) : Bool :=
  let left := a.normalize
  let right := b.normalize
  left.mantissa == right.mantissa && left.scale == right.scale

instance : BEq Decimal := ⟨equal⟩

def isOne (d : Decimal) : Bool := d == one

/-- Most places behind the point with which a one is seen as a one without being reduced: the
    power of ten at that scale is the largest that 128 bits hold. -/
def plainOneScale : Nat := 38

/-- Whether the number is one as it is stored, with few enough places. -/
def isPlainOne (d : Decimal) : Bool :=
  0 ≤ d.scale && d.scale ≤ plainOneScale && d.mantissa == (10 ^ d.scale.toNat : Nat)

def isIntegral (d : Decimal) : Bool := d.normalize.scale ≤ 0

/-- Both mantissas at the larger of the two scales. -/
def align (a b : Decimal) : Int × Int × Int :=
  let scale := max a.scale b.scale
  ((a.rescale scale).mantissa, (b.rescale scale).mantissa, scale)

/-- Order of two positive decimals: by the place of the leading digit, then by alignment. -/
def compareMagnitude (a b : Decimal) : Ordering :=
  match compare ((a.digitCount : Int) - a.scale) ((b.digitCount : Int) - b.scale) with
  | .eq =>
    let (left, right, _) := align a b
    compare left right
  | order => order

def compare (a b : Decimal) : Ordering :=
  match Ord.compare a.mantissa.sign b.mantissa.sign with
  | .eq =>
    if a.mantissa == 0 then .eq
    else if a.mantissa < 0 then compareMagnitude b.abs a.abs
    else compareMagnitude a b
  | order => order

def less (a b : Decimal) : Bool := compare a b == .lt

/-- The smaller of the two; of equal numbers the first. -/
def smaller (a b : Decimal) : Decimal := if less b a then b else a

/-- The larger of the two; of equal numbers the second. -/
def larger (a b : Decimal) : Decimal := if less b a then a else b

/-- The number with exactly `digits` significant digits. Missing digits are zeros; of surplus
    digits a positive number is rounded half up and a negative one is cut. -/
def withDigits (d : Decimal) (digits : Nat) : Decimal :=
  let count := d.digitCount
  if digits < count then
    let unit : Nat := 10 ^ (count - digits)
    let quotient := d.mantissa.tdiv unit
    let rest := d.mantissa.tmod unit
    let carry : Int := if (unit : Int) ≤ 2 * rest then 1 else 0
    ⟨quotient + carry, d.scale - (count - digits : Nat)⟩
  else ⟨d.mantissa * (10 ^ (digits - count) : Nat), d.scale + (digits - count : Nat)⟩

end Decimal

end Formulary
