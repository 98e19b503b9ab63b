import Formulary.Catalog.Basic

namespace Formulary.Catalog

/-! The catalog every program starts from: decimals and how they are made from and turned into
    machine numbers. Numbers become decimals implicitly and decimals become numbers
    explicitly. -/

def unexpected (expected : Ty) (value : Value) : Except Fault Value :=
  .error (.typeError ("expected " ++ expected.name ++ ", found " ++ value.ty.name))

def int32ToDecimal : Conversion where
  name := "i32_to_decimal"
  source := .int32
  target := .decimal
  implicit := true
  apply
    | .int32 n => .ok (.decimal (Decimal.ofInt n.toInt))
    | value => unexpected .int32 value

def int64ToDecimal : Conversion where
  name := "i64_to_decimal"
  source := .int64
  target := .decimal
  implicit := true
  apply
    | .int64 n => .ok (.decimal (Decimal.ofInt n.toInt))
    | value => unexpected .int64 value

def float64ToDecimal : Conversion where
  name := "f64_to_decimal"
  source := .float64
  target := .decimal
  implicit := true
  apply
    | .float64 x =>
      match (Binary.unpack64 x).toDecimal? with
      | some d => .ok (.decimal d)
      | none => .error (.invalidValue (Binary.text64 x ++ " has no decimal representation"))
    | value => unexpected .float64 value

def decimalToFloat64 : Conversion where
  name := "decimal_to_f64"
  source := .decimal
  target := .float64
  implicit := false
  apply
    | .decimal d =>
      match Binary.ofDecimal64? d with
      | some x => .ok (.float64 x)
      | none => .error (.overflow (d.text ++ " does not fit f64"))
    | value => unexpected .decimal value

def decimalToInt64 : Conversion where
  name := "decimal_to_i64"
  source := .decimal
  target := .int64
  implicit := false
  apply
    | .decimal d =>
      match Sized.ofInt? d.toInt with
      | some n => .ok (.int64 n)
      | none => .error (.overflow (d.text ++ " does not fit i64"))
    | value => unexpected .decimal value

def standard : Catalog where
  declarations := [{
    type := .decimal
    conversions :=
      [int32ToDecimal, int64ToDecimal, float64ToDecimal, decimalToFloat64, decimalToInt64] }]

end Formulary.Catalog
