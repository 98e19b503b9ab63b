import Formulary.Expr.Basic

namespace Formulary.Expr

/-! Names that occur in a tree: variables that no enclosing definition binds, functions that
    are called and functions that are defined. -/

mutual

/-- Variables that are neither in `bound` nor parameters of the definition around them. The
    body of a definition sees its own parameters only, its value sees what the definition
    itself sees. -/
def freeVariables (bound : List String) : Expr → List String
  | number _ | text _ => []
  | var name => if name ∈ bound then [] else [name]
  | unary _ operand => freeVariables bound operand
  | binary _ operands => freeVariablesAll bound operands
  | member target _ => freeVariables bound target
  | call _ arguments _ => freeVariablesAll bound arguments
  | define _ parameters body value => freeVariables parameters body ++ freeVariables bound value

def freeVariablesAll (bound : List String) : List Expr → List String
  | [] => []
  | expr :: rest => freeVariables bound expr ++ freeVariablesAll bound rest

end

def callees (expr : Expr) : List String :=
  expr.subtrees.filterMap fun
    | call name _ _ => some name
    | _ => none

def definitions (expr : Expr) : List String :=
  expr.subtrees.filterMap fun
    | define name _ _ _ => some name
    | _ => none

end Formulary.Expr

namespace Formulary

structure Definition where
  name : String
  parameters : List String
  body : Expr
deriving Inhabited

/-- Variables of the body other than its parameters. -/
def Definition.free (definition : Definition) : List String :=
  definition.body.freeVariables definition.parameters

end Formulary
