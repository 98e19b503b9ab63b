import Formulary.Binary.Basic
import Formulary.Sized

namespace Formulary.Decimal

open scoped Powers

/-! When a number computed ahead of time is what every numeric type would compute. -/

/-- The narrowest type that holds a number: 0 for integers of 32 bits, 1 for integers of 64
    bits, 2 for decimals. -/
def integerRange (d : Decimal) : Nat :=
  if !d.isIntegral then 2
  else
    let n := d.toInt
    if Width.w32.Holds n then 0
    else if Width.w64.Holds n then 1
    else 2

def bitLength (n : Nat) : Nat := if n = 0 then 0 else n.log2 + 1

/-- Whether `mantissa * 2 ^ exponent` is a finite 32-bit float. -/
def fitsSingle (mantissa : Nat) (exponent : Int) : Bool :=
  let twos := Binary.Finite.spareBits (bitLength mantissa) mantissa
  let odd := mantissa / 2 ^ twos
  let lowest := exponent + twos
  bitLength odd ≤ 24 && -149 ≤ lowest && lowest + bitLength odd ≤ 128

/-- Scales beyond this one are too far from any 32-bit float. -/
def singleScaleLimit : Nat := 160

/-- Whether a number is exactly a 32-bit float, and so exactly a 64-bit float. -/
def exactInSingle (d : Decimal) : Bool :=
  let reduced := d.normalize
  let digits := reduced.mantissa.natAbs
  if digits = 0 then true
  else if singleScaleLimit < reduced.scale.natAbs then false
  else
    let fives := 5 ^ reduced.scale.natAbs
    if 0 < reduced.scale then
      digits % fives == 0 && fitsSingle (digits / fives) (-reduced.scale)
    else fitsSingle (digits * fives) (-reduced.scale)

/-- The result when it is the same in every type the operands may have: it is no integer that
    comes out of fractions, it needs no wider integers than the operands, and none of the
    numbers is rounded by a float type. -/
def exactEverywhere? (operands : List Decimal) (result : Decimal) : Option Decimal :=
  let widest := (operands.map integerRange).foldl max 0
  if operands.any (fun d => !d.isIntegral) && result.isIntegral then none
  else if result.isIntegral && widest < result.integerRange then none
  else if operands.all exactInSingle && result.exactInSingle then some result
  else none

/-- Number of digits of the integer part. -/
def integerDigits (d : Decimal) : Nat := Digits.length d.toInt.natAbs

end Formulary.Decimal
