import Formulary.Conversion.Search
import Formulary.Lowering.State

namespace Formulary

/-! Operands of operators and functions, and how they are brought to a common type. An operand
    can be lowered more than once, each time under another hint on its type. -/

structure Operand where
  expr : Expr
  span : Option Span
  /-- Lower the operand; the hint is the type that would suit best. -/
  lower : Option Ty → LowerM Node

instance : Inhabited Operand := ⟨⟨default, none, fun _ => throw default⟩⟩

/-- A hint for operands of arithmetic, where only numbers are of use. -/
def numericHint (hint : Option Ty) : Option Ty := hint.filter Ty.isNumeric

namespace Catalog

/-- The node converted to a type. A constant is converted at once when its conversion
    succeeds. -/
def coerce (catalog : Catalog) (node : Node) (target : Ty) : Except CompileError Node :=
  if node.ty = target then .ok node
  else
    match catalog.path? node.ty target with
    | none => .error (.noConversion node.ty target)
    | some path =>
      match node with
      | .constant value =>
        match path.apply value with
        | .ok converted => .ok (.constant converted)
        | .error _ => .ok (node.converted path)
      | node => .ok (node.converted path)

/-- A truth value as the hint wants it: as it is for truth values, and as a number otherwise. -/
def materialize (catalog : Catalog) (hint : Option Ty) (node : Node) : Except CompileError Node :=
  match hint with
  | some .bool => .ok node
  | hint => catalog.coerce node ((numericHint hint).getD .int32)

/-- The node as a number; truth values become one or zero. -/
def numeric (catalog : Catalog) (hint : Option Ty) (node : Node) : Except CompileError Node :=
  if node.ty.isNumeric then .ok node
  else if node.ty = .bool then catalog.coerce node ((numericHint hint).getD .int32)
  else .error (.typeError (node.ty.name ++ " is not a number"))

/-- The widest type to which all nodes convert. -/
def widestOf (catalog : Catalog) (nodes : List Node) : Except CompileError Ty :=
  let types := nodes.map Node.ty
  match catalog.widest? types with
  | some type => .ok type
  | none => .error (.typeError ("no common type for " ++ Ty.names types))

end Catalog

namespace Operand

def locating (operand : Operand) (action : LowerM α) : LowerM α :=
  LowerM.locating operand.expr operand.span action

/-- The operand lowered under a type and converted to it. -/
def lowerAs (catalog : Catalog) (type : Ty) (operand : Operand) : LowerM Node := do
  let node ← operand.lower (some type)
  operand.locating (catalog.coerce node type)

/-- Lower under a hint every operand whose node does not have the type yet. -/
def lowerRest (catalog : Catalog) (type : Ty) : List Operand → List Node → LowerM (List Node)
  | operand :: operands, node :: nodes => do
    let node ← if node.ty = type then pure node else operand.lowerAs catalog type
    return node :: (← lowerRest catalog type operands nodes)
  | _, _ => return []

/-- Bring lowered operands to one type. When they disagree, those that do not have the widest
    type are lowered again under it. -/
def unify (catalog : Catalog) (operands : List Operand) (nodes : List Node) :
    LowerM (List Node × Ty) :=
  match nodes with
  | [] => throw (.typeError "operation without operands")
  | first :: _ => do
    if nodes.all fun node => node.ty = first.ty then return (nodes, first.ty)
    let widest ← catalog.widestOf nodes
    return (← lowerRest catalog widest operands nodes, widest)

def lowerAll (hint : Option Ty) (operands : List Operand) : LowerM (List Node) :=
  operands.mapM fun operand => operand.lower hint

end Operand

/-- Nodes combined in pairs from the left. -/
def foldNodes (combine : Node → Node → Node) : List Node → LowerM Node
  | [] => throw (.typeError "operation without operands")
  | first :: rest => return rest.foldl combine first

end Formulary
