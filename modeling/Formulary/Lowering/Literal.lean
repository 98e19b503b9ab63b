import Formulary.Compiler
import Formulary.Expr.Scope

namespace Formulary

/-! Nodes of literals, variables and members. -/

/-- Digits of the base of the natural logarithm. -/
def eDigits : String :=
  "2.71828182845904523536028747135266249775724709369995957496696762772407663035354759"

/-- Digits of the ratio of a circle's circumference to its diameter. -/
def piDigits : String :=
  "3.14159265358979323846264338327950288419716939937510582097494459230781640628620899"

/-- The value of a named constant. -/
def constant? (name : String) : Option Decimal :=
  if name == "e" then Decimal.parse? eDigits
  else if name == "pi" then Decimal.parse? piDigits
  else none

/-- A literal at the narrowest type that holds it. -/
def naturalValue (value : Decimal) : Value :=
  if value.isIntegral then
    match Sized.ofInt? value.toInt, Sized.ofInt? value.toInt with
    | some small, _ => .int32 small
    | none, some large => .int64 large
    | none, none => .decimal value
  else .decimal value

/-- A literal at the hinted type where it fits, and at its own type otherwise. -/
def literalValue (hint : Option Ty) (value : Decimal) : Value :=
  match hint.filter fun type => type = .bool || type.isNumeric with
  | some type => (Value.ofDecimal value type).toOption.getD (naturalValue value)
  | none => naturalValue value

/-- What a formula sees at a place: the type wanted there, the parameters of the function
    around it, and the definitions that can be called, the innermost first. -/
structure Scope where
  hint : Option Ty
  /-- Index and type of each parameter; of equal names the first entry counts. -/
  parameters : List (String × Nat × Ty) := []
  definitions : List (Nat × Definition) := []
deriving Inhabited

namespace Scope

def withHint (scope : Scope) (hint : Option Ty) : Scope := { scope with hint }

/-- The definition of a name with those below it, which are the ones its body can call. -/
def visible (name : String) : List (Nat × Definition) → List (Nat × Definition)
  | [] => []
  | entry :: rest => if entry.2.name == name then entry :: rest else visible name rest

def defines (scope : Scope) (name : String) : Bool := !(visible name scope.definitions).isEmpty

end Scope

namespace Compiler

/-- A parameter, an input or a constant, in this order. -/
def lowerVariable (compiler : Compiler) (scope : Scope) (name : String) : LowerM Node := do
  match scope.parameters.lookup name with
  | some (index, type) => return .parameter index type
  | none =>
    match compiler.options.inputs.get? name with
    | some type => return .slot (← LowerM.slotIndex name type) type
    | none =>
      match constant? name with
      | none => throw (.unknownVariable name)
      | some digits =>
        let type := (scope.hint.filter fun type => type.isFloat || type = .decimal).getD
          .float64
        match Value.ofDecimal (digits.withDigits compiler.calculator.digits) type with
        | .ok value => return .constant value
        | .error cause => throw (.fault cause)

def lowerMember (compiler : Compiler) (name : String) (target : Operand) : LowerM Node := do
  let target ← target.lower none
  match compiler.catalog.memberType? target.ty name with
  | some type => return .member name type target
  | none => throw (.fault (.memberNotFound (target.ty.name ++ "." ++ name)))

end Compiler

end Formulary
