namespace Formulary

namespace Powers

/-- Powers of numbers are the ones they come with, whatever else a module imports. -/
scoped instance (priority := high) numberPow {α : Type} [NatPow α] : Pow α Nat := instPowNat

end Powers

open scoped Powers

namespace Digits

/-! Decimal digits of natural numbers: how many there are, which trailing zeros can be
    dropped, and how digit characters are read. -/

/-- The first length `d`, starting from the given one, with `n < 10 ^ d`. -/
def lengthFrom (n : Nat) : Nat → Nat → Nat
  | 0, length => length
  | fuel + 1, length => if n < 10 ^ length then length else lengthFrom n fuel (length + 1)

/-- Number of decimal digits of `n`; zero has one digit. The search starts at a lower bound
    read off the binary length, because `10 ^ 1233 < 2 ^ 4096`. -/
def length (n : Nat) : Nat :=
  lengthFrom n (n.log2 + 1) (n.log2 * 1233 / 4096 + 1)

/-- Drop at most `fuel` trailing zeros and count the dropped ones. -/
def dropZeros : Nat → Nat → Nat × Nat
  | 0, n => (n, 0)
  | fuel + 1, n =>
    if n % 10 = 0 then
      let (stripped, count) := dropZeros fuel (n / 10)
      (stripped, count + 1)
    else (n, 0)

/-- `n` without its trailing zeros, and how many there were. -/
def stripZeros (n : Nat) : Nat × Nat :=
  if n = 0 then (0, 0) else dropZeros (n.log2 + 1) n

def isDigit (c : Char) : Bool :=
  '0' ≤ c && c ≤ '9'

def valueOf (c : Char) : Nat :=
  c.toNat - '0'.toNat

/-- Value of a text of digits, most significant first. -/
def value (digits : List Char) : Nat :=
  digits.foldl (fun total c => 10 * total + valueOf c) 0

/-- Digits of `n`, most significant first, without leading zeros. -/
def ofNat (n : Nat) : List Char :=
  Nat.toDigits 10 n

end Digits

end Formulary
