import Formulary.Value.Basic

namespace Formulary.Value

/-! Numbers seen as values of one type or another: embedding of decimals, the exact decimal
    of a value, and casts between machine numbers. -/

/-- A decimal as a value of a type. Integers must be exact and fit; floats may round but must
    be finite. -/
def ofDecimal (value : Decimal) (ty : Ty) : Except Fault Value :=
  let outOfRange : Fault := .overflow (value.text ++ " does not fit " ++ ty.name)
  let orOutOfRange (result : Option Value) : Except Fault Value :=
    match result with
    | some v => .ok v
    | none => .error outOfRange
  let orNotInteger (result : Option Value) : Except Fault Value :=
    if value.isIntegral then orOutOfRange result
    else .error (.invalidValue (value.text ++ " is not an integer"))
  match ty with
  | .bool => .ok (bool !value.isZero)
  | .int32 => orNotInteger ((Sized.ofInt? value.toInt).map int32)
  | .int64 => orNotInteger ((Sized.ofInt? value.toInt).map int64)
  | .float32 => orOutOfRange ((Binary.ofDecimal32? value).map float32)
  | .float64 => orOutOfRange ((Binary.ofDecimal64? value).map float64)
  | .decimal => .ok (decimal value)
  | other => .error (.typeError ("cannot embed number " ++ value.text ++ " as " ++ other.name))

/-- Exact decimal of a number or truth value. -/
def toDecimal? : Value → Option Decimal
  | bool b => some (Decimal.ofBool b)
  | int32 n => some (Decimal.ofInt n.toInt)
  | int64 n => some (Decimal.ofInt n.toInt)
  | float32 x => (Binary.unpack32 x).toDecimal?
  | float64 x => (Binary.unpack64 x).toDecimal?
  | decimal d => some d
  | _ => none

/-- Cast of an integer; one that does not fit has none. -/
def castInteger? (n : Int) : Ty → Option Value
  | .int32 => (Sized.ofInt? n).map int32
  | .int64 => (Sized.ofInt? n).map int64
  | .float32 => some (float32 (Binary.ofInt32 n))
  | .float64 => some (float64 (Binary.ofInt64 n))
  | _ => none

/-- Cast of a float; to integers the fraction is cut off. -/
def castFloat? (x : Float) : Ty → Option Value
  | .int32 => ((Binary.truncate64? x).bind Sized.ofInt?).map int32
  | .int64 => ((Binary.truncate64? x).bind Sized.ofInt?).map int64
  | .float32 =>
    let narrowed := x.toFloat32
    let overflows :=
      Binary.isFinite (Binary.unpack64 x) && !Binary.isFinite (Binary.unpack32 narrowed)
    if overflows then none else some (float32 narrowed)
  | .float64 => some (float64 x)
  | _ => none

/-- Cast between machine numbers. -/
def cast (value : Value) (target : Ty) : Except Fault Value :=
  let result : Option Value :=
    match value, target with
    | float32 x, .float32 => some (float32 x)
    | int32 n, target => castInteger? n.toInt target
    | int64 n, target => castInteger? n.toInt target
    | float32 x, target => castFloat? x.toFloat target
    | float64 x, target => castFloat? x target
    | _, _ => none
  match result with
  | some cast => .ok cast
  | none =>
    if value.ty.isPrimitiveNumeric && target.isPrimitiveNumeric then
      .error (.overflow (value.display ++ " does not fit " ++ target.name))
    else .error (.typeError ("no primitive cast from " ++ value.ty.name ++ " to " ++ target.name))

end Formulary.Value
