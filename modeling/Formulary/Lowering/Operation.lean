import Formulary.Lowering.Literal

namespace Formulary.Compiler

/-! Nodes of operators. -/

def lowerUnary (compiler : Compiler) (hint : Option Ty) (op : UnaryOperator)
    (operand : Operand) : LowerM Node :=
  let number : LowerM Node := do
    compiler.catalog.numeric hint (← operand.lower (numericHint hint))
  match op with
  | .negate => do
    let node ← number
    return .negate node.ty node
  | .factorial => do
    let node ← number
    return .factorial node.ty node
  | .not => do
    let node ← compiler.catalog.coerce (← operand.lower none) .bool
    compiler.catalog.materialize hint (.not node)

/-- Arithmetic from the left at the common type of the operands. -/
def lowerArithmetic (compiler : Compiler) (hint : Option Ty) (op : Operator)
    (operands : List Operand) : LowerM Node := do
  let nodes ← operands.mapM fun operand => do
    let node ← operand.lower (numericHint hint)
    operand.locating (compiler.catalog.numeric hint node)
  let (nodes, type) ← Operand.unify compiler.catalog operands nodes
  if !type.isNumeric then
    throw (.typeError ("`" ++ op.symbol ++ "` is not defined on " ++ type.name))
  foldNodes (.arith op type) nodes

def lowerComparison (compiler : Compiler) (hint : Option Ty) (op : Operator)
    (operands : List Operand) : LowerM Node := do
  if operands.length ≠ 2 then
    throw (.typeError ("`" ++ op.symbol ++ "` compares exactly two operands, found " ++
      toString operands.length))
  let (nodes, _) ← Operand.unify compiler.catalog operands (← Operand.lowerAll none operands)
  compiler.catalog.materialize hint (← foldNodes (.compare op) nodes)

def lowerLogic (compiler : Compiler) (hint : Option Ty) (op : Operator)
    (operands : List Operand) : LowerM Node := do
  let nodes ← operands.mapM fun operand => do
    let node ← operand.lower none
    operand.locating (compiler.catalog.coerce node .bool)
  compiler.catalog.materialize hint (← foldNodes (.logic op) nodes)

def lowerBinary (compiler : Compiler) (spanOf : Expr → Option Span) (hint : Option Ty)
    (op : Operator) (operands : List Operand) : LowerM Node :=
  match operands.reverse with
  | [] => throw (.typeError ("`" ++ op.symbol ++ "` without operands"))
  | [operand] => operand.lower hint
  | last :: rest =>
    if op = .power then
      PowerStrategy.lowerPower compiler.strategies compiler.catalog hint
        (PowerStrategy.chained compiler.strategies compiler.catalog spanOf rest) last
    else if op.isComparison then compiler.lowerComparison hint op operands
    else if op.isLogical then compiler.lowerLogic hint op operands
    else compiler.lowerArithmetic hint op operands

end Formulary.Compiler
