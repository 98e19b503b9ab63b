import Formulary.Evaluation.Arithmetic
import Formulary.Evaluation.Comparison
import Formulary.Evaluation.Math
import Formulary.Program

namespace Formulary

/-! Evaluation of programs. Recursion of the functions of a program is bounded by the depth of
    their calls. -/

structure Machine where
  calculator : Calculator := Calculator.standard
  maxCallDepth : Nat := 256

instance : Inhabited Machine := ⟨{}⟩

namespace Native

/-- Apply a native function and check the type of its result. -/
def apply (calculator : Calculator) (function : Native) (type : Ty) (arguments : List Value) :
    Except EvalError Value := do
  let result ← EvalError.lift <| match function with
    | math function => function.apply calculator arguments
    | host _ apply => apply arguments
  if result.ty = type then return result
  else throw (.typeError
    (function.name ++ " returned " ++ result.ty.name ++ ", expected " ++ type.name))

end Native

namespace Node

mutual

/-- Value of a node; `call` applies the functions of the program. -/
def evalWith (calculator : Calculator) (call : Nat → List Value → Except EvalError Value)
    (slots parameters : List Value) : Node → Except EvalError Value
  | constant value => .ok value
  | slot index _ =>
    match slots[index]? with
    | some value => .ok value
    | none => .error (.missingSlot index)
  | parameter index _ =>
    match parameters[index]? with
    | some value => .ok value
    | none => .error (.missingParameter index)
  | convert step operand => do
    EvalError.lift (step.apply (← evalWith calculator call slots parameters operand))
  | negate _ operand => do
    (← evalWith calculator call slots parameters operand).negate
  | not operand => do
    let value ← evalWith calculator call slots parameters operand
    return .bool !(← EvalError.lift value.truth)
  | factorial type operand => do
    (← evalWith calculator call slots parameters operand).factorial calculator type
  | arith op _ left right => do
    let left ← evalWith calculator call slots parameters left
    let right ← evalWith calculator call slots parameters right
    Value.arith calculator op left right
  | compare op left right => do
    let left ← evalWith calculator call slots parameters left
    let right ← evalWith calculator call slots parameters right
    return .bool (← Value.comparison op left right)
  | logic op left right => do
    let value ← evalWith calculator call slots parameters left
    let first ← EvalError.lift value.truth
    return .bool (← op.connect first fun _ => do
      let value ← evalWith calculator call slots parameters right
      EvalError.lift value.truth)
  | choose _ condition positive negative => do
    let value ← evalWith calculator call slots parameters condition
    if ← EvalError.lift value.truth then evalWith calculator call slots parameters positive
    else evalWith calculator call slots parameters negative
  | member name _ target => do
    EvalError.lift ((← evalWith calculator call slots parameters target).member name)
  | native function type arguments => do
    function.apply calculator type (← evalAllWith calculator call slots parameters arguments)
  | .call function _ arguments => do
    call function (← evalAllWith calculator call slots parameters arguments)
  | guard restriction condition body => do
    let value ← evalWith calculator call slots parameters condition
    if ← EvalError.lift value.truth then throw (.domainViolation restriction)
    else evalWith calculator call slots parameters body

def evalAllWith (calculator : Calculator) (call : Nat → List Value → Except EvalError Value)
    (slots parameters : List Value) : List Node → Except EvalError (List Value)
  | [] => .ok []
  | node :: rest => do
    let value ← evalWith calculator call slots parameters node
    return value :: (← evalAllWith calculator call slots parameters rest)

end

end Node

namespace Machine

/-- Apply a function of a program with `remaining` further nested calls allowed. -/
def call (machine : Machine) (program : Program) (slots : List Value) :
    Nat → Nat → List Value → Except EvalError Value
  | 0, index, _ =>
    match program.functions[index]? with
    | some _ => .error (.callDepthExceeded machine.maxCallDepth)
    | none => .error (.unknownFunction index)
  | remaining + 1, index, arguments =>
    match program.functions[index]? with
    | some function =>
      function.body.evalWith machine.calculator (call machine program slots remaining) slots
        arguments
    | none => .error (.unknownFunction index)

/-- Value of a program for one value per input. -/
def evaluate (machine : Machine) (program : Program) (slots : List Value) :
    Except EvalError Value :=
  if slots.length ≠ program.slots.length then
    .error (.argumentCount program.slots.length slots.length)
  else
    program.root.evalWith machine.calculator
      (machine.call program slots machine.maxCallDepth) slots []

end Machine

end Formulary
