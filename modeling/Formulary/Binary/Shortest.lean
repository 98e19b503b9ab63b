import Formulary.Binary.Basic

namespace Formulary.Binary

open scoped Powers

/-! The written form of binary numbers: the fewest digits that read back as the same number,
    always positional. -/

namespace Finite

/-- Compare `digits * 10 ^ power` with `quarters * 2 ^ (exponent - 2)`. -/
def compareGrid (digits : Nat) (power : Int) (quarters : Nat) (exponent : Int) : Ordering :=
  compare (digits * 10 ^ power.toNat * 2 ^ (2 - exponent).toNat)
    (quarters * 2 ^ (exponent - 2).toNat * 10 ^ (-power).toNat)

/-- Whether `digits * 10 ^ power` lies among the reals that round to the number. The ends of
    that interval belong to it when the mantissa is even. -/
def readsBack (number : Finite) (digits : Nat) (power : Int) : Bool :=
  let quarters := 4 * number.mantissa
  let lower := if number.narrowBelow then quarters - 1 else quarters - 2
  let closed := number.mantissa % 2 == 0
  let below := compareGrid digits power lower number.exponent
  let above := compareGrid digits power (quarters + 2) number.exponent
  (below == .gt || closed && below == .eq) && (above == .lt || closed && above == .eq)

/-- The number divided by `10 ^ power`, cut to an integer, and whether the cut is below half. -/
def gridBelow (number : Finite) (power : Int) : Nat × Bool :=
  let dividend := number.mantissa * 2 ^ number.exponent.toNat * 10 ^ (-power).toNat
  let divisor := 2 ^ (-number.exponent).toNat * 10 ^ power.toNat
  (dividend / divisor, 2 * (dividend % divisor) < divisor)

/-- The point of the grid `10 ^ power` that stands for the number, if one reads back: of its
    two neighbours the nearer, and the upper one when both are equally near. -/
def onGrid (number : Finite) (power : Int) : Option Nat :=
  let (lower, nearLower) := number.gridBelow power
  let low := number.readsBack lower power
  let high := number.readsBack (lower + 1) power
  if low && (nearLower || !high) then some lower
  else if high then some (lower + 1)
  else none

/-- First grid, going to finer ones, on which the number has a point. -/
def selectFrom (number : Finite) : Nat → Int → Nat × Int
  | 0, power => ((number.gridBelow power).1, power)
  | fuel + 1, power =>
    match number.onGrid power with
    | some digits => (digits, power)
    | none => selectFrom number fuel (power - 1)

/-- Power of ten at or above the leading digit of the number. -/
def leadingPower (number : Finite) : Int :=
  ((number.mantissa.log2 : Int) + 1 + number.exponent) * 1234 / 4096 + 1

/-- Fewest digits that read back, without trailing zeros, and their power of ten. -/
def shortest (number : Finite) : Nat × Int :=
  let (digits, power) := number.selectFrom 40 number.leadingPower
  let (stripped, count) := Digits.stripZeros digits
  (stripped, power + count)

end Finite

/-- Positional form of `digits * 10 ^ power`. -/
def positional (digits : Nat) (power : Int) : List Char :=
  let written := Digits.ofNat digits
  if 0 ≤ power then written ++ List.replicate power.toNat '0'
  else
    let places := (-power).toNat
    if places < written.length then
      written.take (written.length - places) ++ '.' :: written.drop (written.length - places)
    else '0' :: '.' :: List.replicate (places - written.length) '0' ++ written

def Unpacked.text : Unpacked → String
  | .nan => "NaN"
  | .infinite negative => if negative then "-inf" else "inf"
  | .finite number =>
    let sign := if number.negative then "-" else ""
    if number.isZero then sign ++ "0"
    else
      let (digits, power) := number.shortest
      sign ++ String.ofList (positional digits power)

end Formulary.Binary
