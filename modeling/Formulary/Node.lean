import Formulary.Conversion.Path
import Formulary.MathFunction
import Formulary.Operator

namespace Formulary

/-! Typed trees that can be evaluated. Operands of an operator have the same type already. -/

/-- A function of values that is not written as a formula. -/
inductive Native where
  | math (function : MathFunction)
  | host (name : String) (apply : List Value → Except Fault Value)

def Native.name : Native → String
  | math function => function.name
  | host name _ => name

inductive Node where
  | constant (value : Value)
  /-- An input of the program. -/
  | slot (index : Nat) (type : Ty)
  /-- A parameter of the function around the node. -/
  | parameter (index : Nat) (type : Ty)
  | convert (step : Step) (operand : Node)
  | negate (type : Ty) (operand : Node)
  | not (operand : Node)
  | factorial (type : Ty) (operand : Node)
  | arith (op : Operator) (type : Ty) (left right : Node)
  | compare (op : Operator) (left right : Node)
  | logic (op : Operator) (left right : Node)
  /-- Only the chosen branch is evaluated. -/
  | choose (type : Ty) (condition positive negative : Node)
  | member (name : String) (type : Ty) (target : Node)
  | native (function : Native) (type : Ty) (arguments : List Node)
  /-- A call of a function of the program. -/
  | call (function : Nat) (type : Ty) (arguments : List Node)
  /-- No value where the condition holds. -/
  | guard (restriction : String) (condition body : Node)

instance : Inhabited Node := ⟨.constant (.bool false)⟩

namespace Node

def ty : Node → Ty
  | constant value => value.ty
  | slot _ type => type
  | parameter _ type => type
  | convert step _ => step.target
  | negate type _ => type
  | not _ => .bool
  | factorial type _ => type
  | arith _ type _ _ => type
  | compare _ _ _ => .bool
  | logic _ _ _ => .bool
  | choose type _ _ _ => type
  | member _ type _ => type
  | native _ type _ => type
  | call _ type _ => type
  | guard _ _ body => body.ty

/-- The node with the steps of a path applied to it in order. -/
def converted (node : Node) (path : Path) : Node :=
  path.foldl (fun node step => convert step node) node

mutual

def size : Node → Nat
  | constant _ | slot _ _ | parameter _ _ => 1
  | convert _ operand => 1 + size operand
  | negate _ operand => 1 + size operand
  | not operand => 1 + size operand
  | factorial _ operand => 1 + size operand
  | arith _ _ left right => 1 + (size left + size right)
  | compare _ left right => 1 + (size left + size right)
  | logic _ left right => 1 + (size left + size right)
  | choose _ condition positive negative =>
    1 + (size condition + size positive + size negative)
  | member _ _ target => 1 + size target
  | native _ _ arguments => 1 + sizeAll arguments
  | call _ _ arguments => 1 + sizeAll arguments
  | guard _ condition body => 1 + (size condition + size body)

def sizeAll : List Node → Nat
  | [] => 0
  | node :: rest => size node + sizeAll rest

end

end Node

end Formulary
