import Formulary.Decimal.Digits
import Formulary.Fault

namespace Formulary

open scoped Powers

/-! Signed integers of 32 and 64 bits. Operations are exact or refuse. -/

inductive Width where
  | w32
  | w64
deriving DecidableEq, Inhabited

namespace Width

def bits : Width → Nat
  | w32 => 32
  | w64 => 64

def top (w : Width) : Int := 2 ^ (w.bits - 1) - 1

def bottom (w : Width) : Int := -2 ^ (w.bits - 1)

def Holds (w : Width) (n : Int) : Prop := w.bottom ≤ n ∧ n ≤ w.top

instance (w : Width) (n : Int) : Decidable (w.Holds n) := by
  unfold Holds; infer_instance

end Width

/-- An integer within the range of a width. -/
structure Sized (w : Width) where
  toInt : Int
  holds : w.Holds toInt
deriving DecidableEq

namespace Sized

variable {w : Width}

def ofInt? (n : Int) : Option (Sized w) :=
  if fits : w.Holds n then some ⟨n, fits⟩ else none

def zero : Sized w := ⟨0, by cases w <;> decide⟩

def one : Sized w := ⟨1, by cases w <;> decide⟩

instance : Inhabited (Sized w) := ⟨zero⟩

def ofBool (b : Bool) : Sized w := if b then one else zero

def text (n : Sized w) : String := toString n.toInt

def add? (a b : Sized w) : Option (Sized w) := ofInt? (a.toInt + b.toInt)

def sub? (a b : Sized w) : Option (Sized w) := ofInt? (a.toInt - b.toInt)

def mul? (a b : Sized w) : Option (Sized w) := ofInt? (a.toInt * b.toInt)

/-- Quotient towards zero; the divisor is not zero. -/
def div? (a b : Sized w) : Option (Sized w) := ofInt? (a.toInt.tdiv b.toInt)

/-- Remainder with the sign of the dividend, refused where the quotient does not fit. -/
def rem? (a b : Sized w) : Option (Sized w) := do
  let _ ← div? a b
  ofInt? (a.toInt.tmod b.toInt)

def neg? (a : Sized w) : Option (Sized w) := ofInt? (-a.toInt)

def abs? (a : Sized w) : Option (Sized w) := ofInt? a.toInt.natAbs

/-- Multiply `result` by `square ^ exponent`; the square after the last one used is not
    computed. -/
def powerLoop : Nat → Sized w → Sized w → Nat → Option (Sized w)
  | 0, result, _, _ => some result
  | fuel + 1, result, square, exponent => do
    let result ← if exponent % 2 == 1 then mul? result square else some result
    if exponent / 2 == 0 then return result
    powerLoop fuel result (← mul? square square) (exponent / 2)

def pow? (a : Sized w) (exponent : Nat) : Option (Sized w) :=
  powerLoop (exponent.log2 + 1) one a exponent

def smaller (a b : Sized w) : Sized w := if b.toInt < a.toInt then b else a

def larger (a b : Sized w) : Sized w := if b.toInt < a.toInt then a else b

end Sized

end Formulary
