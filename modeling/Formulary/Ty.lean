namespace Formulary

/-! Static types of values. -/

inductive Ty where
  | bool
  | int32
  | int64
  | float32
  | float64
  | decimal
  | text
  | named (name : String)
deriving DecidableEq, Inhabited

namespace Ty

def name : Ty → String
  | bool => "bool"
  | int32 => "i32"
  | int64 => "i64"
  | float32 => "f32"
  | float64 => "f64"
  | decimal => "decimal"
  | text => "str"
  | named name => name

/-- Machine numbers: each of them is cast to any other in a single step. -/
def isPrimitiveNumeric : Ty → Bool
  | int32 | int64 | float32 | float64 => true
  | _ => false

/-- Types with arithmetic. -/
def isNumeric : Ty → Bool
  | int32 | int64 | float32 | float64 | decimal => true
  | _ => false

def isInteger : Ty → Bool
  | int32 | int64 => true
  | _ => false

def isFloat : Ty → Bool
  | float32 | float64 => true
  | _ => false

/-- Order of preference among types to which operands can be brought. -/
def width : Ty → Nat
  | bool => 1
  | int32 => 32
  | float32 => 40
  | int64 => 64
  | float64 => 72
  | decimal => 256
  | text => 0
  | named _ => 0

def names (types : List Ty) : String := ", ".intercalate (types.map name)

end Ty

end Formulary
