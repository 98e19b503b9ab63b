import Formulary.Lowering.Operand

namespace Formulary

/-! Functions that formulas can call by name. The first one of a name that takes the given
    number of arguments is used. -/

/-- A function of the host with a fixed signature. -/
structure HostFunction where
  name : String
  parameters : List Ty
  returnType : Ty
  apply : List Value → Except Fault Value

/-- A function that lowers its calls itself. -/
structure CustomFunction where
  name : String
  arity : Nat
  accepts : Nat → Bool
  /-- Types of its nodes other than those of its operands. -/
  types : List Ty
  /-- The node of a call, or nothing when the arguments do not suit. -/
  lower : Catalog → Option Ty → List Operand → LowerM (Option Node)

inductive Builtin where
  /-- The choice between two branches, of which one is evaluated. -/
  | conditional
  | math (function : MathFunction)
  | host (function : HostFunction)
  | custom (function : CustomFunction)

namespace Builtin

def name : Builtin → String
  | conditional => "if"
  | math function => function.name
  | host function => function.name
  | custom function => function.name

def arity : Builtin → Nat
  | conditional => 3
  | math function => function.arity
  | host function => function.parameters.length
  | custom function => function.arity

def accepts (builtin : Builtin) (count : Nat) : Bool :=
  match builtin with
  | custom function => function.accepts count
  | builtin => count == builtin.arity

/-- Types of its nodes other than those of its operands. -/
def types : Builtin → List Ty
  | host function => function.returnType :: function.parameters
  | custom function => function.types
  | _ => []

def lowerConditional (catalog : Catalog) (hint : Option Ty) (operands : List Operand) :
    LowerM (Option Node) :=
  match operands with
  | [condition, positive, negative] => do
    let condition ← condition.lowerAs catalog .bool
    let branches := [positive, negative]
    let (nodes, type) ← Operand.unify catalog branches (← Operand.lowerAll hint branches)
    match nodes with
    | [positive, negative] => return some (.choose type condition positive negative)
    | _ => return none
  | _ => return none

/-- The type at which a function other than the rounding ones is computed. -/
def functionType (function : MathFunction) : Option Ty → Ty
  | some .float32 => .float32
  | some .decimal => if function.isTrigonometric then .float64 else .decimal
  | _ => .float64

def lowerMath (function : MathFunction) (catalog : Catalog) (hint : Option Ty)
    (operands : List Operand) : LowerM (Option Node) := do
  let (arguments, type) ←
    if function.preservesIntegers then do
      let nodes ← operands.mapM fun operand => do
        catalog.numeric hint (← operand.lower (numericHint hint))
      Operand.unify catalog operands nodes
    else do
      let type := functionType function hint
      let nodes ← operands.mapM (Operand.lowerAs catalog type)
      pure (nodes, type)
  if type.isNumeric then return some (.native (.math function) type arguments)
  return none

def lowerHost (function : HostFunction) (catalog : Catalog) (operands : List Operand) :
    LowerM (Option Node) := do
  let arguments ← (operands.zip function.parameters).mapM fun (operand, type) =>
    operand.lowerAs catalog type
  return some (.native (.host function.name function.apply) function.returnType arguments)

def lower (builtin : Builtin) (catalog : Catalog) (hint : Option Ty) (operands : List Operand) :
    LowerM (Option Node) :=
  match builtin with
  | conditional => lowerConditional catalog hint operands
  | math function => lowerMath function catalog hint operands
  | host function => lowerHost function catalog operands
  | custom function => function.lower catalog hint operands

/-- The choice and the mathematical functions. -/
def defaults : List Builtin := conditional :: MathFunction.all.map math

/-- Lower a call by the builtins of its name. -/
def lowerCall (builtins : List Builtin) (catalog : Catalog) (hint : Option Ty) (name : String)
    (operands : List Operand) : LowerM Node := do
  let named := builtins.filter (·.name == name)
  if named.isEmpty then throw (.unknownFunction name)
  match named.find? (·.accepts operands.length) with
  | none => throw (.arityMismatch name (named.map arity) operands.length)
  | some builtin =>
    match ← builtin.lower catalog hint operands with
    | some node => return node
    | none => throw (.builtinFailed name)

end Builtin

end Formulary
