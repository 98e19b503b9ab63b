import Formulary.Expr.Basic

namespace Formulary.Expr

/-! Flattening of chains: `(a + b) + c` and `a + (b + c)` become one sum of three operands. -/

/-- Whether chains of an operator are flattened, given those that are kept apart. -/
def chains (keptApart : List Operator) (op : Operator) : Bool :=
  op.isAssociative && !keptApart.contains op

/-- The operands of an operand of the same operator, or else the operand itself. -/
def spliced (op : Operator) : Expr → List Expr
  | binary inner operands => if inner == op then operands else [binary inner operands]
  | expr => [expr]

mutual

def flatten (keptApart : List Operator) : Expr → Expr
  | number value => number value
  | text content => text content
  | var name => var name
  | unary op operand => unary op (flatten keptApart operand)
  | binary op operands =>
    let operands := flattenAll keptApart operands
    binary op (if chains keptApart op then operands.flatMap (spliced op) else operands)
  | member target name => member (flatten keptApart target) name
  | call name arguments primed => call name (flattenAll keptApart arguments) primed
  | define name parameters body value =>
    define name parameters (flatten keptApart body) (flatten keptApart value)

def flattenAll (keptApart : List Operator) : List Expr → List Expr
  | [] => []
  | expr :: rest => flatten keptApart expr :: flattenAll keptApart rest

end

end Formulary.Expr
