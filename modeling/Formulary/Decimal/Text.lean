import Formulary.Decimal.Basic

namespace Formulary.Decimal

open scoped Powers

/-! The written form of decimals and its reader. -/

/-- Zeros allowed between the point and the first digit before an exponent is written. -/
def leadingZeroLimit : Int := 5

/-- Zeros allowed behind the digits of an integer before an exponent is written. -/
def trailingZeroLimit : Int := 15

def zeros (count : Nat) : List Char := List.replicate count '0'

/-- Digits of a non-zero magnitude laid out for its scale. -/
def layout (digits : List Char) (scale : Int) : List Char :=
  let count : Int := digits.length
  if 0 < scale && leadingZeroLimit < scale - count then
    let exponent := (toString (count - 1 - scale)).toList
    match digits with
    | [] => []
    | [digit] => digit :: 'E' :: exponent
    | digit :: rest => digit :: '.' :: rest ++ 'E' :: exponent
  else if trailingZeroLimit < -scale then
    digits ++ 'e' :: '+' :: (toString (-scale)).toList
  else if scale ≤ 0 then digits ++ zeros (-scale).toNat
  else
    let places := scale.toNat
    if places < digits.length then
      digits.take (digits.length - places) ++ '.' :: digits.drop (digits.length - places)
    else '0' :: '.' :: zeros (places - digits.length) ++ digits

/-- Written form: zero is `0` at every scale, very small numbers have an exponent after `E`,
    very large ones after `e+`, all others are positional. -/
def chars (d : Decimal) : List Char :=
  if d.isZero then ['0']
  else
    let written := layout (Digits.ofNat d.mantissa.natAbs) d.scale
    if d.isNegative then '-' :: written else written

def text (d : Decimal) : String := String.ofList d.chars

/-- Digits of a number text: underscores may follow the first digit and are skipped. -/
def readDigits : List Char → Option Nat
  | [] => none
  | first :: rest =>
    if Digits.isDigit first && rest.all (fun c => Digits.isDigit c || c == '_') then
      some (Digits.value (first :: rest.filter Digits.isDigit))
    else none

/-- Digits with one optional sign in front. -/
def readSigned : List Char → Option Int
  | '-' :: rest => (readDigits rest).map fun n => -(n : Int)
  | '+' :: rest => (readDigits rest).map Int.ofNat
  | digits => (readDigits digits).map Int.ofNat

/-- Exponent of a number text: a sign and plain digits, within 128 bits. -/
def readExponent (text : List Char) : Option Int :=
  let digits := match text with
    | '-' :: rest => rest
    | '+' :: rest => rest
    | rest => rest
  if digits.all Digits.isDigit then
    match readSigned text with
    | some value => if -(2 ^ (127 : Nat)) ≤ value && value < 2 ^ (127 : Nat) then some value else none
    | none => none
  else none

/-- Whether a scale fits 64 bits. -/
def scaleFits (scale : Int) : Bool := -(2 ^ (63 : Nat)) ≤ scale && scale < 2 ^ (63 : Nat)

/-- Mantissa and number of fraction digits of a text without exponent. The point may stand
    first or last, but not alone. -/
def readPoint (text : List Char) : Option (Int × Nat) :=
  let whole := text.takeWhile (· != '.')
  match text.dropWhile (· != '.') with
  | [] => (readSigned whole).map fun n => (n, 0)
  | _ :: fraction =>
    (readSigned (whole ++ fraction)).map fun n => (n, (fraction.filter (· != '_')).length)

/-- Reads `[sign]digits[.digits][e[sign]digits]`; the scale is the number of fraction digits
    less the exponent. -/
def parseChars? (text : List Char) : Option Decimal :=
  let isMark (c : Char) : Bool := c == 'e' || c == 'E'
  let base := text.takeWhile (fun c => !isMark c)
  let exponent := match text.dropWhile (fun c => !isMark c) with
    | [] => some 0
    | _ :: digits => readExponent digits
  match exponent, readPoint base with
  | some exponent, some (mantissa, places) =>
    let scale := (places : Int) - exponent
    if scaleFits scale then some ⟨mantissa, scale⟩ else none
  | _, _ => none

def parse? (text : String) : Option Decimal := parseChars? text.toList

end Formulary.Decimal
