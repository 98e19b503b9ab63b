import Formulary.Binary.Machine

namespace Formulary.Document

open scoped Powers

/-! Numbers as they are written in documents: integers in several bases, and floats whose
    digits are gathered in one word of 64 bits. -/

/-- A digit of the given base. -/
def digit? (base : Nat) (c : Char) : Option Nat :=
  let value :=
    if '0' ≤ c ∧ c ≤ '9' then c.toNat - '0'.toNat
    else if 'a' ≤ c ∧ c ≤ 'f' then c.toNat - 'a'.toNat + 10
    else if 'A' ≤ c ∧ c ≤ 'F' then c.toNat - 'A'.toNat + 10
    else base
  if value < base then some value else none

/-- A number in the given base, written with at least one digit. -/
def radix? (base : Nat) (digits : List Char) : Option Nat :=
  if digits.isEmpty then none
  else digits.foldlM (fun value c => (digit? base c).map (base * value + ·)) 0

/-- The float next to `significand * 10 ^ exponent`: the significand is rounded first and then
    scaled by one power of ten. -/
def scaledFloat (negative : Bool) (significand : Nat) (exponent : Int) : Float :=
  let magnitude := Binary.ofInt64 significand
  let scaled :=
    if significand = 0 ∨ exponent < -616 then 0
    else if 308 < exponent then 1 / 0
    else if exponent < 0 then
      if exponent < -308 then magnitude / Float.ofScientific 1 false 308 /
        Float.ofScientific 1 false (-exponent - 308).toNat
      else magnitude / Float.ofScientific 1 false (-exponent).toNat
    else magnitude * Float.ofScientific 1 false exponent.toNat
  if negative then -scaled else scaled

/-- A significand carried on by digits as long as 64 bits hold it, and the digits left over. -/
def extendSignificand (significand : Nat) : List Char → Nat × List Char
  | [] => (significand, [])
  | digit :: rest =>
    let extended := 10 * significand + Digits.valueOf digit
    if extended < 2 ^ (64 : Nat) then extendSignificand extended rest
    else (significand, digit :: rest)

/-- The float written with the given digits before and after a point. As many digits as 64
    bits hold make up its significand. Of the others, those before the point count as zeros and
    those after it not at all. -/
def writtenFloat (negative : Bool) (whole fraction : List Char) (exponent : Int) : Float :=
  let (significand, wholeLeft) := extendSignificand 0 whole
  let (significand, fractionLeft) := extendSignificand significand fraction
  let places : Int := fraction.length - fractionLeft.length
  scaledFloat negative significand (exponent + wholeLeft.length - places)

end Formulary.Document
