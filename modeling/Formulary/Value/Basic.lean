import Formulary.Ty
import Formulary.Sized
import Formulary.Binary.Machine
import Formulary.Decimal.Text

namespace Formulary

/-! Values that programs receive and produce. Each value has exactly one type. -/

inductive Value where
  | bool (value : Bool)
  | int32 (value : Sized .w32)
  | int64 (value : Sized .w64)
  | float32 (value : Float32)
  | float64 (value : Float)
  | decimal (value : Decimal)
  | text (value : String)
  /-- An instance of a declared type, with its fields in the order of their names. -/
  | object (type : String) (fields : List (String × Value))
deriving Inhabited

namespace Value

def ty : Value → Ty
  | bool _ => .bool
  | int32 _ => .int32
  | int64 _ => .int64
  | float32 _ => .float32
  | float64 _ => .float64
  | decimal _ => .decimal
  | text _ => .text
  | object type _ => .named type

def zero? : Ty → Option Value
  | .int32 => some (int32 .zero)
  | .int64 => some (int64 .zero)
  | .float32 => some (float32 0.0)
  | .float64 => some (float64 0.0)
  | .decimal => some (decimal .zero)
  | _ => none

def one? : Ty → Option Value
  | .int32 => some (int32 .one)
  | .int64 => some (int64 .one)
  | .float32 => some (float32 1.0)
  | .float64 => some (float64 1.0)
  | .decimal => some (decimal .one)
  | _ => none

/-- Truth of a value: of numbers, whether it differs from zero. -/
def truth : Value → Except Fault Bool
  | bool b => .ok b
  | int32 n => .ok (n.toInt != 0)
  | int64 n => .ok (n.toInt != 0)
  | float32 x => .ok (x != 0.0)
  | float64 x => .ok (x != 0.0)
  | decimal d => .ok !d.isZero
  | other => .error (.typeError (other.ty.name ++ " has no truth value"))

mutual

/-- Equality of values: numbers of one type by their number, objects field by field. -/
def equal : Value → Value → Bool
  | bool a, bool b => a == b
  | int32 a, int32 b => a.toInt == b.toInt
  | int64 a, int64 b => a.toInt == b.toInt
  | float32 a, float32 b => a == b
  | float64 a, float64 b => a == b
  | decimal a, decimal b => a == b
  | text a, text b => a == b
  | object typeA fieldsA, object typeB fieldsB => typeA == typeB && equalFields fieldsA fieldsB
  | _, _ => false

def equalFields : List (String × Value) → List (String × Value) → Bool
  | [], [] => true
  | (nameA, a) :: restA, (nameB, b) :: restB =>
    nameA == nameB && equal a b && equalFields restA restB
  | _, _ => false

end

instance : BEq Value := ⟨equal⟩

mutual

/-- Written form of a value, for messages. -/
def display : Value → String
  | bool b => if b then "true" else "false"
  | int32 n => n.text
  | int64 n => n.text
  | float32 x => Binary.text32 x
  | float64 x => Binary.text64 x
  | decimal d => d.text
  | text s => "\"" ++ s ++ "\""
  | object type fields => type ++ " \x7b" ++ displayFields "" fields ++ " \x7d"

/-- Fields one after the other, the first after `separator` and the others after a comma. -/
def displayFields (separator : String) : List (String × Value) → String
  | [] => ""
  | (name, value) :: rest =>
    separator ++ " " ++ name ++ ": " ++ display value ++ displayFields "," rest

end

def member (value : Value) (name : String) : Except Fault Value :=
  match value with
  | object type fields =>
    match fields.find? (·.1 == name) with
    | some (_, field) => .ok field
    | none => .error (.memberNotFound (type ++ "." ++ name))
  | other => .error (.memberNotFound (other.ty.name ++ " has no member " ++ name))

end Value

end Formulary
