import Formulary.Binary.Shortest

namespace Formulary.Binary

open scoped Powers

/-! The machine numbers of 32 and 64 bits: how they are taken apart, written, and obtained
    from integers and decimals. -/

def unpack64 (x : Float) : Unpacked := unpack double x.toBits.toNat

def unpack32 (x : Float32) : Unpacked := unpack single x.toBits.toNat

def isFinite : Unpacked → Bool
  | .finite _ => true
  | _ => false

def Unpacked.toDecimal? : Unpacked → Option Decimal
  | .finite number => some number.toDecimal
  | _ => none

def text64 (x : Float) : String := (unpack64 x).text

def text32 (x : Float32) : String := (unpack32 x).text

/-- Integer part of a finite number. -/
def truncate64? (x : Float) : Option Int :=
  match unpack64 x with
  | .finite number => some number.truncate
  | _ => none

def ofInt64 (n : Int) : Float :=
  let magnitude := Float.ofScientific n.natAbs false 0
  if n < 0 then -magnitude else magnitude

def ofInt32 (n : Int) : Float32 :=
  let magnitude := Float32.ofScientific n.natAbs false 0
  if n < 0 then -magnitude else magnitude

/-- Remainder of truncated division, exact. -/
def remainder64 (a b : Float) : Float :=
  match unpack64 a, unpack64 b with
  | .finite _, .infinite _ => a
  | .finite left, .finite right =>
    if right.isZero then 0.0 / 0.0
    else Float.ofBits (UInt64.ofNat (left.remainderBits double right))
  | _, _ => 0.0 / 0.0

def remainder32 (a b : Float32) : Float32 :=
  match unpack32 a, unpack32 b with
  | .finite _, .infinite _ => a
  | .finite left, .finite right =>
    if right.isZero then 0.0 / 0.0
    else Float32.ofBits (UInt32.ofNat (left.remainderBits single right))
  | _, _ => 0.0 / 0.0

/-- `base ^ exponent` by repeated squaring, each product rounded. -/
def powerLoop : Nat → Float → Float → Nat → Float
  | 0, result, _, _ => result
  | fuel + 1, result, base, exponent =>
    let result := if exponent % 2 == 1 then result * base else result
    if exponent / 2 == 0 then result else powerLoop fuel result (base * base) (exponent / 2)

def power (base : Float) (exponent : Nat) : Float :=
  powerLoop (exponent.log2 + 1) 1.0 base exponent

/-- Digits that a long mantissa keeps before it is read as a binary number. -/
def keptDigits : Nat := 25

/-- Digits dropped in one step from a long mantissa. -/
def droppedDigits : Nat := 19

/-- How often `droppedDigits` digits are dropped from a mantissa of the given magnitude. -/
def dropCount (magnitude : Nat) : Nat :=
  let bits := magnitude.log2 + 1
  let digits := (bits + 1) * 30102999566398119521 / 100000000000000000000
  (digits - keptDigits) / droppedDigits

/-- A decimal cut to the digits that matter for a binary number. -/
def shorten (d : Decimal) : Decimal :=
  let count := dropCount d.mantissa.natAbs
  ⟨d.mantissa.tdiv (10 ^ (droppedDigits * count) : Nat), d.scale - (droppedDigits * count : Nat)⟩

/-- Places beyond the digits of a number at which it is nearer to zero than to any float. -/
def vanishingPlaces : Nat := 400

/-- The machine number next to `digits * 10 ^ (-places)`. -/
def ofFraction (digits places : Nat) : Float :=
  if Digits.length digits + vanishingPlaces < places then 0.0
  else Float.ofScientific digits true places

/-- Nearest machine number; long mantissas are cut first, and a mantissa with zeros behind it
    is multiplied by a rounded power of ten. There is none when the number is too large. -/
def ofDecimal64? (d : Decimal) : Option Float :=
  let result : Option Float :=
    if d.isZero then some 0.0
    else if d.scale == 0 then some (ofInt64 d.mantissa)
    else
      let cut := shorten d
      if cut.scale < -2147483647 || 2147483647 < cut.scale then none
      else if cut.scale ≤ 0 then some (ofInt64 cut.mantissa * power 10.0 (-cut.scale).toNat)
      else
        let magnitude := ofFraction cut.mantissa.natAbs cut.scale.toNat
        some (if cut.mantissa < 0 then -magnitude else magnitude)
  result.filter fun x => isFinite (unpack64 x)

def ofDecimal32? (d : Decimal) : Option Float32 :=
  ((ofDecimal64? d).map Float.toFloat32).filter fun x => isFinite (unpack32 x)

end Formulary.Binary
