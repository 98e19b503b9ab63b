import Formulary.Evaluation.Arithmetic
import Formulary.Evaluation.Math
import Formulary.Expr.Scope
import Formulary.Proofs.Evaluation.Outcome

namespace Formulary

/-! The value of a formula over decimals, read off its tree. Operands are evaluated and combined
    from the left. A call evaluates its arguments first; the body of a definition sees its own
    parameters and the definitions that were made before it. -/

/-- What a tree sees: the values of the parameters around it, and the definitions that it can
    call, the innermost first. -/
structure Frame where
  parameters : List (String × Decimal)
  definitions : List Definition

namespace Frame

/-- The frame in which a tree with these parameters stands; of equal names the last counts. -/
def ofValues (names : List String) (values : List Decimal) (definitions : List Definition) :
    Frame :=
  ⟨(names.zip values).reverse, definitions⟩

def define (frame : Frame) (definition : Definition) : Frame :=
  { frame with definitions := definition :: frame.definitions }

end Frame

/-- The definition of a name with those below it, which are the ones its body can call. -/
def Definition.visible (name : String) : List Definition → List Definition
  | [] => []
  | definition :: rest => if definition.name == name then definition :: rest else visible name rest

/-- Two operands of a chain: sums, differences and products are exact, quotients and powers have
    the digits of the calculator, and there is no division by zero. -/
def Operator.combine (calculator : Calculator) (op : Operator) (a b : Decimal) :
    Except EvalError Decimal :=
  match op with
  | .add => .ok (a.add b)
  | .sub => .ok (a.sub b)
  | .mul => .ok (a.mul b)
  | .div => EvalError.lift (Decimal.divide a b calculator.digits)
  | .rem => if b.isZero then .error (.fault .divisionByZero) else .ok (a.rem b)
  | .power => EvalError.lift (calculator.pow a b)
  | other => .error (notArithmetic other)

theorem Calculator.arith_eq (calculator : Calculator) (op : Operator) (a b : Decimal) :
    calculator.arith op a b = op.combine calculator a b := by
  cases op <;> rfl

theorem Operator.combine_ne_ok {op : Operator} (other : op.isArithmetic = false)
    (calculator : Calculator) (a b c : Decimal) : op.combine calculator a b ≠ .ok c := by
  intro done
  cases op with
  | add | sub | mul | div | rem | power => cases other
  | _ => cases done

namespace MathFunction

/-- A function on decimals. -/
def value (calculator : Calculator) (function : MathFunction) (arguments : List Decimal) :
    Except EvalError Decimal := do
  match ← EvalError.lift (function.apply calculator (arguments.map .decimal)) with
  | .decimal result => .ok result
  | other => .error (.typeError other.ty.name)

end MathFunction

/-- A function of the definitions around a call or, without a prime, of the mathematical ones.
    `enter` evaluates the body of a definition. -/
def Definition.applyNamed (calculator : Calculator)
    (enter : Definition → List Definition → List Decimal → Except EvalError Decimal)
    (definitions : List Definition) (name : String) (primed : Bool) (values : List Decimal) :
    Except EvalError Decimal :=
  match visible name definitions with
  | definition :: below =>
    if values.length = definition.parameters.length then enter definition below values
    else .error (.argumentCount definition.parameters.length values.length)
  | [] =>
    match if primed then none else MathFunction.ofName? name with
    | some function => function.value calculator values
    | none => .error (.unboundSlot name)

namespace Expr

mutual

def valueWith (calculator : Calculator) (inputs : String → Option Decimal)
    (enter : Definition → List Definition → List Decimal → Except EvalError Decimal) :
    Expr → Frame → Except EvalError Decimal
  | number value, _ => .ok value
  | var name, frame =>
    match (frame.parameters.lookup name).or (inputs name) with
    | some value => .ok value
    | none => .error (.unboundSlot name)
  | unary .negate operand, frame => do
    return (← valueWith calculator inputs enter operand frame).neg
  | unary .factorial operand, frame => do
    EvalError.lift (calculator.factorial (← valueWith calculator inputs enter operand frame))
  | binary op (first :: rest), frame => do
    let value ← valueWith calculator inputs enter first frame
    combineWith calculator inputs enter op value rest frame
  | call name arguments primed, frame => do
    let values ← valuesWith calculator inputs enter arguments frame
    Definition.applyNamed calculator enter frame.definitions name primed values
  | define name parameters body value, frame =>
    valueWith calculator inputs enter value (frame.define ⟨name, parameters, body⟩)
  | _, _ => .error (.typeError "not a number")

/-- Combine a value with further operands from the left. -/
def combineWith (calculator : Calculator) (inputs : String → Option Decimal)
    (enter : Definition → List Definition → List Decimal → Except EvalError Decimal)
    (op : Operator) (value : Decimal) : List Expr → Frame → Except EvalError Decimal
  | [], _ => .ok value
  | operand :: rest, frame => do
    let next ← valueWith calculator inputs enter operand frame
    let value ← op.combine calculator value next
    combineWith calculator inputs enter op value rest frame

def valuesWith (calculator : Calculator) (inputs : String → Option Decimal)
    (enter : Definition → List Definition → List Decimal → Except EvalError Decimal) :
    List Expr → Frame → Except EvalError (List Decimal)
  | [], _ => .ok []
  | expr :: rest, frame => do
    let value ← valueWith calculator inputs enter expr frame
    return value :: (← valuesWith calculator inputs enter rest frame)

end

/-- Evaluate the body of a definition with `depth` nested calls allowed. -/
def enterWithin (calculator : Calculator) (inputs : String → Option Decimal) :
    Nat → Definition → List Definition → List Decimal → Except EvalError Decimal
  | 0, _, _, _ => .error (.callDepthExceeded 0)
  | depth + 1, definition, below, values =>
    valueWith calculator inputs (enterWithin calculator inputs depth) definition.body
      (.ofValues definition.parameters values (definition :: below))

/-- The value of a tree with `depth` nested calls allowed. -/
def valueWithin (calculator : Calculator) (inputs : String → Option Decimal) (depth : Nat)
    (expr : Expr) (frame : Frame) : Except EvalError Decimal :=
  expr.valueWith calculator inputs (enterWithin calculator inputs depth) frame

variable {calculator : Calculator} {inputs : String → Option Decimal}
variable {enter : Definition → List Definition → List Decimal → Except EvalError Decimal}

theorem valueWith_single (op : Operator) (operand : Expr) (frame : Frame) :
    (binary op [operand]).valueWith calculator inputs enter frame =
      operand.valueWith calculator inputs enter frame := by
  simp only [valueWith, combineWith]
  cases operand.valueWith calculator inputs enter frame <;> rfl

theorem combineWith_append (op : Operator) (value : Decimal) (operands more : List Expr)
    (frame : Frame) :
    combineWith calculator inputs enter op value (operands ++ more) frame =
      combineWith calculator inputs enter op value operands frame >>= fun value =>
        combineWith calculator inputs enter op value more frame := by
  induction operands generalizing value with
  | nil => rfl
  | cons operand rest ih => simp only [List.cons_append, combineWith, ih, bind_assoc]

theorem valueWith_concat (op : Operator) {operands : List Expr} (nonempty : operands ≠ [])
    (last : Expr) (frame : Frame) :
    (binary op (operands ++ [last])).valueWith calculator inputs enter frame =
      (binary op operands).valueWith calculator inputs enter frame >>= fun value =>
        last.valueWith calculator inputs enter frame >>= fun operand =>
          op.combine calculator value operand := by
  obtain ⟨first, rest, rfl⟩ := List.exists_cons_of_ne_nil nonempty
  simp only [List.cons_append, valueWith, combineWith_append, combineWith, bind_assoc]
  congr 1
  funext value
  congr 1
  funext value
  congr 1
  funext operand
  cases op.combine calculator value operand <;> rfl

/-- A chain of an operator that makes no numbers has a value for one operand only. -/
theorem single_of_not_arithmetic {op : Operator} (other : op.isArithmetic = false)
    {operands : List Expr} {value : Decimal} {frame : Frame}
    (done : (binary op operands).valueWith calculator inputs enter frame = .ok value) :
    ∃ operand, operands = [operand] := by
  match operands with
  | [] => cases done
  | [operand] => exact ⟨operand, rfl⟩
  | first :: second :: rest =>
    simp only [valueWith, combineWith] at done
    obtain ⟨left, -, done⟩ := bind_eq_ok.mp done
    obtain ⟨right, -, done⟩ := bind_eq_ok.mp done
    obtain ⟨combined, impossible, -⟩ := bind_eq_ok.mp done
    exact absurd impossible (Operator.combine_ne_ok other calculator left right combined)

end Expr

end Formulary
