import Formulary.Document.Number

namespace Formulary.Document

open scoped Powers

/-! The words of unquoted scalars, and the numbers that they stand for. -/

def boolWord? : String → Option Bool
  | "true" | "True" | "TRUE" => some true
  | "false" | "False" | "FALSE" => some false
  | _ => none

def isNullWord : String → Bool
  | "~" | "null" | "Null" | "NULL" => true
  | _ => false

/-- Digits without a sign. Decimal numbers have no leading zeros. -/
def unsigned? : List Char → Option Nat
  | '0' :: 'x' :: rest => radix? 16 rest
  | '0' :: 'o' :: rest => radix? 8 rest
  | '0' :: 'b' :: rest => radix? 2 rest
  | '0' :: _ :: _ => none
  | digits => radix? 10 digits

/-- An unquoted scalar as a natural number. -/
def plainNat? : List Char → Option Nat
  | '+' :: digits => unsigned? digits
  | digits => unsigned? digits

/-- An unquoted scalar as an integer that fits a signed or an unsigned word of 128 bits. -/
def plainInt? : List Char → Option Int
  | '-' :: digits => ((unsigned? digits).filter (· ≤ 2 ^ (127 : Nat))).map fun n => -(n : Int)
  | content => ((plainNat? content).filter (· < 2 ^ (128 : Nat))).map Int.ofNat

/-- The sign of a number and what follows it. -/
def splitSign : List Char → Bool × List Char
  | '-' :: rest => (true, rest)
  | '+' :: rest => (false, rest)
  | rest => (false, rest)

/-- An exponent after its mark, or zero where nothing is written. -/
def plainExponent? : List Char → Option Int
  | [] => some 0
  | c :: rest =>
    let (negative, digits) := splitSign rest
    if c == 'e' || c == 'E' then
      (radix? 10 digits).map fun n => if negative then -(n : Int) else n
    else none

/-- Digits beyond which a number is larger than any float. -/
def overflowingDigits : Nat := 400

/-- The float next to `digits * 10 ^ (-places)`, if there is one. -/
def nearestFloat? (digits : Nat) (places : Int) : Option Float :=
  if digits = 0 then some 0.0
  else if 0 < places then some (Binary.ofFraction digits places.toNat)
  else if overflowingDigits < Digits.length digits - places then none
  else some (Float.ofScientific digits false (-places).toNat)

/-- An unquoted scalar as a finite float: digits with a point before, between or after them, and
    an exponent. -/
def plainFloat? (content : List Char) : Option Float := do
  let (negative, rest) := splitSign content
  let whole := rest.takeWhile Char.isDigit
  let rest := rest.dropWhile Char.isDigit
  let (fraction, rest) := match rest with
    | '.' :: rest => (rest.takeWhile Char.isDigit, rest.dropWhile Char.isDigit)
    | rest => ([], rest)
  let exponent ← plainExponent? rest
  let digits ← radix? 10 (whole ++ fraction)
  let x ← nearestFloat? digits (fraction.length - exponent)
  if Binary.isFinite (Binary.unpack64 x) then return if negative then -x else x else none

/-- Whether the scalar is a number with leading zeros, which is only a text. -/
def hasLeadingZeros (content : List Char) : Bool :=
  match (splitSign content).2 with
  | '0' :: c :: rest => (c :: rest).all Char.isDigit
  | _ => false

end Formulary.Document
