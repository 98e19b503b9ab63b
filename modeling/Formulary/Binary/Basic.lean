import Formulary.Decimal.Basic

namespace Formulary.Binary

open scoped Powers

/-! Binary floating-point numbers taken apart into integers. Everything that is not one
    rounded machine operation is computed here exactly: the decimal value, the integer part
    and the remainder. -/

/-- Widths of the two fields of a binary format. -/
structure Layout where
  fractionBits : Nat
  exponentBits : Nat

def single : Layout := ⟨23, 8⟩

def double : Layout := ⟨52, 11⟩

namespace Layout

/-- Exponent of the last place of the smallest numbers. -/
def minExponent (layout : Layout) : Int :=
  2 - 2 ^ (layout.exponentBits - 1) - layout.fractionBits

/-- First bit pattern of the exponent field that stands for no number. -/
def specialExponent (layout : Layout) : Nat := 2 ^ layout.exponentBits - 1

end Layout

/-- The number `± mantissa * 2 ^ exponent`. -/
structure Finite where
  negative : Bool
  mantissa : Nat
  exponent : Int
  /-- The gap to the next smaller magnitude is half the gap to the next larger one. -/
  narrowBelow : Bool
  subnormal : Bool

inductive Unpacked where
  | nan
  | infinite (negative : Bool)
  | finite (number : Finite)

/-- Take the bit pattern of a format apart. -/
def unpack (layout : Layout) (bits : Nat) : Unpacked :=
  let fraction := bits % 2 ^ layout.fractionBits
  let field := bits / 2 ^ layout.fractionBits % 2 ^ layout.exponentBits
  let negative := bits / 2 ^ (layout.fractionBits + layout.exponentBits) % 2 == 1
  if field == layout.specialExponent then
    if fraction == 0 then .infinite negative else .nan
  else if field == 0 then .finite ⟨negative, fraction, layout.minExponent, false, true⟩
  else
    .finite ⟨negative, 2 ^ layout.fractionBits + fraction, layout.minExponent + field - 1,
      fraction == 0 && 1 < field, false⟩

/-- Bit pattern of `± mantissa * 2 ^ exponent`, for a mantissa that needs no rounding. -/
def pack (layout : Layout) (negative : Bool) (mantissa : Nat) (exponent : Int) : Nat :=
  let sign := if negative then 2 ^ (layout.fractionBits + layout.exponentBits) else 0
  if mantissa == 0 then sign
  else
    let shift := min (layout.fractionBits - mantissa.log2) (exponent - layout.minExponent).toNat
    let shifted := mantissa * 2 ^ shift
    let field := (exponent - shift - layout.minExponent).toNat + 1
    if shifted < 2 ^ layout.fractionBits then sign + shifted
    else sign + field * 2 ^ layout.fractionBits + (shifted - 2 ^ layout.fractionBits)

namespace Finite

def isZero (number : Finite) : Bool := number.mantissa == 0

def signed (number : Finite) (magnitude : Nat) : Int :=
  if number.negative then -(magnitude : Int) else magnitude

/-- Integer part. -/
def truncate (number : Finite) : Int :=
  number.signed (number.mantissa * 2 ^ number.exponent.toNat / 2 ^ (-number.exponent).toNat)

/-- Trailing zero bits of the mantissa that can be moved into a negative exponent. -/
def spareBits : Nat → Nat → Nat
  | 0, _ => 0
  | fuel + 1, mantissa => if mantissa % 2 == 0 then spareBits fuel (mantissa / 2) + 1 else 0

/-- Exact decimal expansion, with as many places as the binary fraction has bits. Subnormal
    numbers keep all the places of the format. -/
def toDecimal (number : Finite) : Decimal :=
  if number.isZero then .zero
  else
    let spare :=
      if number.subnormal then 0 else spareBits (-number.exponent).toNat number.mantissa
    let exponent := number.exponent + spare
    let mantissa := number.mantissa / 2 ^ spare
    if 0 ≤ exponent then ⟨number.signed (mantissa * 2 ^ exponent.toNat), 0⟩
    else
      let places := (-exponent).toNat
      ⟨number.signed (mantissa * 5 ^ places), places⟩

/-- Remainder of the truncated quotient, with the sign of the dividend. -/
def remainderBits (layout : Layout) (dividend divisor : Finite) : Nat :=
  let exponent := min dividend.exponent divisor.exponent
  let left := dividend.mantissa * 2 ^ (dividend.exponent - exponent).toNat
  let right := divisor.mantissa * 2 ^ (divisor.exponent - exponent).toNat
  pack layout dividend.negative (left % right) exponent

end Finite

end Formulary.Binary
