import Formulary.Lowering.Operand

namespace Formulary

/-! Ways to lower a power. They are tried in order: the first that gives a node is used, and
    when none does, the last failure is reported. -/

inductive PowerStrategy where
  /-- A literal integer as exponent; the result has the type of the base. -/
  | integerExponent
  /-- Base and exponent of one type. -/
  | sameType
  /-- Base and exponent at the widest type. -/
  | widestType
  | custom (name : String)
      (lower : Catalog → Option Ty → Operand → Operand → LowerM (Option Node))

namespace PowerStrategy

def name : PowerStrategy → String
  | integerExponent => "integer_exponent"
  | sameType => "same_type"
  | widestType => "widest_type"
  | custom name _ => name

/-- A literal that is an integer of 32 bits. -/
def integerLiteral? (expr : Expr) : Option Int := do
  let value ← expr.number?
  guard value.isIntegral
  guard (Width.w32.Holds value.toInt)
  return value.toInt

def lowerIntegerExponent (hint : Option Ty) (base exponent : Operand) : LowerM (Option Node) :=
  match integerLiteral? exponent.expr with
  | none => return none
  | some n => do
    let base ← base.lower (numericHint hint)
    let type := base.ty
    if !type.isNumeric || (n < 0 && type.isInteger) then return none
    match Value.ofDecimal (Decimal.ofInt n) type with
    | .ok value => return some (.arith .power type base (.constant value))
    | .error cause => throw (.fault cause)

def lowerSameType (hint : Option Ty) (base exponent : Operand) : LowerM (Option Node) := do
  let base ← base.lower (numericHint hint)
  let exponent ← exponent.lower (numericHint hint)
  if base.ty = exponent.ty && base.ty.isNumeric then
    return some (.arith .power base.ty base exponent)
  return none

def lowerWidestType (catalog : Catalog) (hint : Option Ty) (base exponent : Operand) :
    LowerM (Option Node) := do
  let operands := [base, exponent]
  let nodes ← Operand.lowerAll (numericHint hint) operands
  let (nodes, type) ← Operand.unify catalog operands nodes
  match nodes with
  | [base, exponent] =>
    if type.isNumeric then return some (.arith .power type base exponent) else return none
  | _ => return none

def lower (strategy : PowerStrategy) (catalog : Catalog) (hint : Option Ty)
    (base exponent : Operand) : LowerM (Option Node) :=
  match strategy with
  | integerExponent => lowerIntegerExponent hint base exponent
  | sameType => lowerSameType hint base exponent
  | widestType => lowerWidestType catalog hint base exponent
  | custom _ lower => lower catalog hint base exponent

def defaults : List PowerStrategy := [integerExponent, sameType, widestType]

/-- Try strategies in order; `failure` is reported when none gives a node. -/
def tryAll (catalog : Catalog) (hint : Option Ty) (base exponent : Operand) :
    CompileError → List PowerStrategy → LowerM Node
  | failure, [] => throw failure
  | failure, strategy :: rest => do
    match ← LowerM.attempt (strategy.lower catalog hint base exponent) with
    | .ok (some node) => return node
    | .ok none => tryAll catalog hint base exponent failure rest
    | .error error => tryAll catalog hint base exponent error rest

def lowerPower (strategies : List PowerStrategy) (catalog : Catalog) (hint : Option Ty)
    (base exponent : Operand) : LowerM Node :=
  let failure := CompileError.typeError <|
    "no power strategy accepts `" ++ base.expr.display ++ " ^ " ++ exponent.expr.display ++ "`"
  tryAll catalog hint base exponent failure strategies

/-- Operands of a power, given from the last to the first, as one operand. -/
def chained (strategies : List PowerStrategy) (catalog : Catalog)
    (spanOf : Expr → Option Span) : List Operand → Operand
  | [] => default
  | [operand] => operand
  | exponent :: rest =>
    let expr := Expr.nary .power ((exponent :: rest).reverse.map (·.expr))
    let base := chained strategies catalog spanOf rest
    ⟨expr, spanOf expr, fun hint =>
      LowerM.locating expr (spanOf expr) (lowerPower strategies catalog hint base exponent)⟩

end PowerStrategy

end Formulary
