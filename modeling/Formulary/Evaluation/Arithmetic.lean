import Formulary.Calculator
import Formulary.Evaluation.Error
import Formulary.Operator
import Formulary.Value.Number

namespace Formulary

/-! Arithmetic on values of one type. Integers never wrap around: a result that does not fit is
    an error. -/

def notArithmetic (op : Operator) : EvalError :=
  .typeError ("`" ++ op.symbol ++ "` is not an arithmetic operator")

namespace Sized

/-- A result that fits, or the error that it does not. -/
def checked (op : Operator) (a b : Sized w) : Option (Sized w) → Except EvalError (Sized w)
  | some result => .ok result
  | none => .error (.fault (.overflow (a.text ++ " " ++ op.symbol ++ " " ++ b.text)))

def arith (op : Operator) (a b : Sized w) : Except EvalError (Sized w) :=
  match op with
  | .add => checked op a b (a.add? b)
  | .sub => checked op a b (a.sub? b)
  | .mul => checked op a b (a.mul? b)
  | .div => if b.toInt = 0 then .error (.fault .divisionByZero) else checked op a b (a.div? b)
  | .rem => if b.toInt = 0 then .error (.fault .divisionByZero) else checked op a b (a.rem? b)
  | .power =>
    if b.toInt < 0 then .error (.fault (.domain ("integer " ++ a.text ++ " ^ " ++ b.text)))
    else checked op a b (a.pow? b.toInt.toNat)
  | other => .error (notArithmetic other)

end Sized

namespace Binary

def arith64 (op : Operator) (a b : Float) : Except EvalError Float :=
  match op with
  | .add => .ok (a + b)
  | .sub => .ok (a - b)
  | .mul => .ok (a * b)
  | .div => .ok (a / b)
  | .rem => .ok (remainder64 a b)
  | .power => .ok (a.pow b)
  | other => .error (notArithmetic other)

def arith32 (op : Operator) (a b : Float32) : Except EvalError Float32 :=
  match op with
  | .add => .ok (a + b)
  | .sub => .ok (a - b)
  | .mul => .ok (a * b)
  | .div => .ok (a / b)
  | .rem => .ok (remainder32 a b)
  | .power => .ok (a.pow b)
  | other => .error (notArithmetic other)

end Binary

namespace Calculator

def arith (calculator : Calculator) (op : Operator) (a b : Decimal) : Except EvalError Decimal :=
  match op with
  | .add => .ok (a.add b)
  | .sub => .ok (a.sub b)
  | .mul => .ok (a.mul b)
  | .div => EvalError.lift (Decimal.divide a b calculator.digits)
  | .rem => if b.isZero then .error (.fault .divisionByZero) else .ok (a.rem b)
  | .power => EvalError.lift (calculator.pow a b)
  | other => .error (notArithmetic other)

end Calculator

namespace Value

def arith (calculator : Calculator) (op : Operator) (left right : Value) :
    Except EvalError Value :=
  match left, right with
  | int32 a, int32 b => (Sized.arith op a b).map int32
  | int64 a, int64 b => (Sized.arith op a b).map int64
  | float32 a, float32 b => (Binary.arith32 op a b).map float32
  | float64 a, float64 b => (Binary.arith64 op a b).map float64
  | decimal a, decimal b => (calculator.arith op a b).map decimal
  | left, right =>
    .error (.typeError
      ("`" ++ op.symbol ++ "` applied to " ++ left.ty.name ++ " and " ++ right.ty.name))

def negateSized (make : Sized w → Value) (n : Sized w) : Except EvalError Value :=
  match n.neg? with
  | some negated => .ok (make negated)
  | none => .error (.fault (.overflow ("-(" ++ n.text ++ ")")))

def negate : Value → Except EvalError Value
  | int32 n => negateSized int32 n
  | int64 n => negateSized int64 n
  | float32 x => .ok (float32 (-x))
  | float64 x => .ok (float64 (-x))
  | decimal d => .ok (decimal d.neg)
  | other => .error (.typeError ("`-` applied to " ++ other.ty.name))

/-- The factorial, computed on decimals and brought back to a type. -/
def factorial (calculator : Calculator) (ty : Ty) (value : Value) : Except EvalError Value :=
  match value.toDecimal? with
  | some d => EvalError.lift do ofDecimal (← calculator.factorial d) ty
  | none => .error (.typeError ("factorial of " ++ value.ty.name))

end Value

end Formulary
