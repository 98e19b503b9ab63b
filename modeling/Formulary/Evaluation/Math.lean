import Formulary.Calculator
import Formulary.MathFunction
import Formulary.Value.Number

namespace Formulary.MathFunction

/-! The mathematical functions on values. An argument outside the domain is an error and never
    gives a result that is not a number. -/

def outsideDomain (function : MathFunction) (argument : String) : Fault :=
  .domain (function.name ++ "(" ++ argument ++ ")")

def takesTwo (function : MathFunction) : Fault :=
  .invalidOperation (function.name ++ " takes two arguments")

def takesOne (function : MathFunction) : Fault :=
  .invalidOperation (function.name ++ " takes one argument")

def notOnIntegers (function : MathFunction) : Fault :=
  .typeError (function.name ++ " is not defined on integers")

/-- A function with a condition on its argument. -/
def within (function : MathFunction) (x : Float) (inside : Bool) (result : Float) :
    Except Fault Float :=
  if inside then .ok result else .error (function.outsideDomain (Binary.text64 x))

def applyFloat (function : MathFunction) (x : Float) : Except Fault Float :=
  match function with
  | exp => .ok x.exp
  | ln => function.within x (!(x ≤ 0.0)) x.log
  | sqrt => function.within x (!(x < 0.0)) x.sqrt
  | sin => .ok x.sin
  | cos => .ok x.cos
  | tan => .ok x.tan
  | asin => function.within x (-1.0 ≤ x && x ≤ 1.0) x.asin
  | acos => function.within x (-1.0 ≤ x && x ≤ 1.0) x.acos
  | atan => .ok x.atan
  | abs => .ok x.abs
  | floor => .ok x.floor
  | ceil => .ok x.ceil
  | round => .ok x.round
  | log | min | max => .error function.takesTwo

/-- The smaller float; one that is not a number is passed over. -/
def minFloat (a b : Float) : Float := if a.isNaN then b else if b < a then b else a

/-- The larger float; one that is not a number is passed over. -/
def maxFloat (a b : Float) : Float := if a.isNaN then b else if a < b then b else a

def applyFloats (function : MathFunction) (a b : Float) : Except Fault Float :=
  match function with
  | log =>
    if a ≤ 0.0 || a == 1.0 || b ≤ 0.0 then
      .error (function.outsideDomain (Binary.text64 a ++ ", " ++ Binary.text64 b))
    else .ok (b.log / a.log)
  | min => .ok (minFloat a b)
  | max => .ok (maxFloat a b)
  | _ => .error function.takesOne

def applyDecimal (calculator : Calculator) (function : MathFunction) (x : Decimal) :
    Except Fault Decimal :=
  match function with
  | exp => calculator.exp x
  | ln => calculator.ln x
  | sqrt => calculator.sqrt x
  | abs => .ok x.abs
  | floor => .ok x.floor
  | ceil => .ok x.ceil
  | round => .ok x.round
  | _ => .error (.notSupported ("decimal " ++ function.name))

def applyDecimals (calculator : Calculator) (function : MathFunction) (a b : Decimal) :
    Except Fault Decimal :=
  match function with
  | log =>
    if a.isOne then .error (function.outsideDomain (a.text ++ ", " ++ b.text))
    else do
      let numerator ← calculator.ln b
      let denominator ← calculator.ln a
      Decimal.divide numerator denominator calculator.digits
  | min => .ok (a.smaller b)
  | max => .ok (a.larger b)
  | _ => .error function.takesOne

def applySized (function : MathFunction) (n : Sized w) : Except Fault (Sized w) :=
  match function with
  | abs =>
    match n.abs? with
    | some result => .ok result
    | none => .error (.overflow ("abs(" ++ n.text ++ ")"))
  | floor | ceil | round => .ok n
  | _ => .error function.notOnIntegers

def applySizedPair (function : MathFunction) (a b : Sized w) : Except Fault (Sized w) :=
  match function with
  | min => .ok (a.smaller b)
  | max => .ok (a.larger b)
  | _ => .error function.notOnIntegers

/-- Apply a function to values of one type. Floats of 32 bits are computed with 64 bits. -/
def apply (calculator : Calculator) (function : MathFunction) (arguments : List Value) :
    Except Fault Value :=
  if arguments.length ≠ function.arity then
    .error (.invalidOperation (function.name ++ " takes " ++ toString function.arity ++
      " argument(s), got " ++ toString arguments.length))
  else
    match arguments with
    | [.float64 x] => (function.applyFloat x).map .float64
    | [.float32 x] => (function.applyFloat x.toFloat).map fun y => .float32 y.toFloat32
    | [.float64 a, .float64 b] => (function.applyFloats a b).map .float64
    | [.float32 a, .float32 b] =>
      (function.applyFloats a.toFloat b.toFloat).map fun y => .float32 y.toFloat32
    | [.decimal x] => (function.applyDecimal calculator x).map .decimal
    | [.decimal a, .decimal b] => (function.applyDecimals calculator a b).map .decimal
    | [.int32 n] => (function.applySized n).map .int32
    | [.int64 n] => (function.applySized n).map .int64
    | [.int32 a, .int32 b] => (function.applySizedPair a b).map .int32
    | [.int64 a, .int64 b] => (function.applySizedPair a b).map .int64
    | _ => .error (.typeError (function.name ++ " is not defined on (" ++
        Ty.names (arguments.map Value.ty) ++ ")"))

end Formulary.MathFunction
