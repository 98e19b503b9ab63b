import Formulary.Evaluation.Error
import Formulary.Operator
import Formulary.Value.Basic

namespace Formulary

/-! Comparison of values of one type, and the logical operators. -/

namespace Binary

/-- Order of two floats; none when one of them is not a number. -/
def order64 (a b : Float) : Option Ordering :=
  if a < b then some .lt else if b < a then some .gt else if a == b then some .eq else none

def order32 (a b : Float32) : Option Ordering :=
  if a < b then some .lt else if b < a then some .gt else if a == b then some .eq else none

end Binary

namespace Value

/-- Order of two values of the same type, or nothing at all for values of types without
    order. -/
def order? : Value → Value → Option (Option Ordering)
  | bool a, bool b => some (some (compare a.toNat b.toNat))
  | int32 a, int32 b => some (some (compare a.toInt b.toInt))
  | int64 a, int64 b => some (some (compare a.toInt b.toInt))
  | float32 a, float32 b => some (Binary.order32 a b)
  | float64 a, float64 b => some (Binary.order64 a b)
  | decimal a, decimal b => some (some (Decimal.compare a b))
  | text a, text b => some (some (compare a b))
  | _, _ => none

/-- Whether a comparison holds. What is not ordered is only ever unequal. -/
def holds (op : Operator) (order : Option Ordering) : Except EvalError Bool :=
  match op with
  | .equal => .ok (order == some .eq)
  | .unequal => .ok (order != some .eq)
  | .less => .ok (order == some .lt)
  | .greater => .ok (order == some .gt)
  | .atMost => .ok (order == some .lt || order == some .eq)
  | .atLeast => .ok (order == some .gt || order == some .eq)
  | other => .error (.typeError ("`" ++ other.symbol ++ "` is not a comparison"))

def cannotCompare (left right : Value) : EvalError :=
  .typeError ("cannot compare " ++ left.ty.name ++ " with " ++ right.ty.name)

def comparison (op : Operator) (left right : Value) : Except EvalError Bool :=
  match left, right with
  | object _ _, object _ _ =>
    match op with
    | .equal => .ok (left == right)
    | .unequal => .ok (left != right)
    | _ => .error (cannotCompare left right)
  | left, right =>
    match order? left right with
    | some order => holds op order
    | none => .error (cannotCompare left right)

end Value

namespace Operator

/-- A logical operator whose first operand is known. The second one is asked for only where it
    matters. -/
def connect (op : Operator) (first : Bool) (second : Unit → Except EvalError Bool) :
    Except EvalError Bool :=
  match op with
  | .and => if first then second () else .ok false
  | .nand => if first then (second ()).map (!·) else .ok true
  | .or => if first then .ok true else second ()
  | .nor => if first then .ok false else (second ()).map (!·)
  | .xor => (second ()).map (first != ·)
  | .xnor => (second ()).map (first == ·)
  | other => .error (.typeError ("`" ++ other.symbol ++ "` is not a logical operator"))

end Operator

end Formulary
