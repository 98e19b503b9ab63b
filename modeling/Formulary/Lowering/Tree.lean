import Formulary.Lowering.Operation

namespace Formulary.Compiler

open scoped Powers

/-! Lowering of trees. A failure names the innermost tree in which it arose. -/

/-- A call of a local definition. `enter` lowers a body in a scope to a type. -/
def lowerCall (compiler : Compiler) (enter : Expr → Scope → Ty → LowerM Node) (scope : Scope)
    (name : String) (operands : List Operand) : LowerM Node := do
  match Scope.visible name scope.definitions with
  | [] => throw (.unknownFunction name)
  | (number, definition) :: below =>
    let arity := definition.parameters.length
    if operands.length ≠ arity then throw (.arityMismatch name [arity] operands.length)
    let arguments ← Operand.lowerAll (numericHint scope.hint) operands
    let types := arguments.map Node.ty
    let signature : Signature := ⟨number, types⟩
    match (← get).functions.lookup signature with
    | some (index, type) => return .call index type arguments
    | none =>
      let returnType := scope.hint.getD compiler.options.expectReturn
      let inside : Scope := {
        hint := some returnType
        parameters := (definition.parameters.zip types.zipIdx).reverse.map
          fun (name, type, index) => (name, index, type)
        definitions := (number, definition) :: below }
      let index ← LowerM.compileFunction signature definition.name returnType
        (enter definition.body inside returnType)
      return .call index returnType arguments

mutual

def lowerWith (compiler : Compiler) (spanOf : Expr → Option Span)
    (enter : Expr → Scope → Ty → LowerM Node) : Expr → Scope → LowerM Node
  | .number value, scope => return .constant (literalValue scope.hint value)
  | .text content, _ => return .constant (.text content)
  | .var name, scope =>
    LowerM.locating (.var name) (spanOf (.var name)) (compiler.lowerVariable scope name)
  | .unary op operand, scope =>
    LowerM.locating (.unary op operand) (spanOf (.unary op operand)) <|
      compiler.lowerUnary scope.hint op ⟨operand, spanOf operand, fun hint =>
        lowerWith compiler spanOf enter operand (scope.withHint hint)⟩
  | .binary op operands, scope =>
    LowerM.locating (.binary op operands) (spanOf (.binary op operands)) <|
      compiler.lowerBinary spanOf scope.hint op
        (operandsWith compiler spanOf enter operands scope)
  | .member target name, scope =>
    LowerM.locating (.member target name) (spanOf (.member target name)) <|
      compiler.lowerMember name ⟨target, spanOf target, fun hint =>
        lowerWith compiler spanOf enter target (scope.withHint hint)⟩
  | .call name arguments primed, scope =>
    LowerM.locating (.call name arguments primed) (spanOf (.call name arguments primed)) <|
      let operands := operandsWith compiler spanOf enter arguments scope
      if primed || scope.defines name then compiler.lowerCall enter scope name operands
      else Builtin.lowerCall compiler.builtins compiler.catalog scope.hint name operands
  | .define name parameters body value, scope =>
    LowerM.locating (.define name parameters body value)
        (spanOf (.define name parameters body value)) do
      let number ← LowerM.freshDefinition
      lowerWith compiler spanOf enter value
        { scope with definitions := (number, ⟨name, parameters, body⟩) :: scope.definitions }

def operandsWith (compiler : Compiler) (spanOf : Expr → Option Span)
    (enter : Expr → Scope → Ty → LowerM Node) : List Expr → Scope → List Operand
  | [], _ => []
  | expr :: rest, scope =>
    ⟨expr, spanOf expr, fun hint => lowerWith compiler spanOf enter expr (scope.withHint hint)⟩ ::
      operandsWith compiler spanOf enter rest scope

end

/-- Lower a tree to a type, with `depth` nested function bodies allowed. -/
def lowerWithin (compiler : Compiler) (spanOf : Expr → Option Span) :
    Nat → Expr → Scope → Ty → LowerM Node
  | 0, _, _, _ => throw .unfinished
  | depth + 1, expr, scope, type => do
    let node ← lowerWith compiler spanOf (lowerWithin compiler spanOf depth) expr
      (scope.withHint (some type))
    LowerM.locating expr (spanOf expr) (compiler.catalog.coerce node type)

/-- Types that nodes can have. -/
def typesInPlay (compiler : Compiler) : List Ty :=
  [.bool, .int32, .int64, .float32, .float64, .decimal, .text, compiler.options.expectReturn] ++
    compiler.options.inputs.map (·.2) ++
    compiler.catalog.declarations.flatMap (fun declaration => declaration.members.map (·.2)) ++
    compiler.catalog.conversions.map (·.target) ++
    compiler.builtins.flatMap Builtin.types

/-- The largest number of parameters of a definition in a tree. -/
def maxParameters (expr : Expr) : Nat :=
  (expr.subtrees.map fun
    | .define _ parameters _ _ => parameters.length
    | _ => 0).foldl max 0

/-- Bound on nested function bodies. At each level of nested definitions a chain of calls meets
    each list of argument types at most once, and between two of these meetings it runs
    through the levels above. -/
def nestingBound (compiler : Compiler) (expr : Expr) : Nat :=
  (compiler.typesInPlay.length ^ maxParameters expr + 1) ^ expr.definitions.length

/-- Lower a tree to a type outside of all definitions. -/
def lowerTo (compiler : Compiler) (spanOf : Expr → Option Span) (type : Ty) (expr : Expr) :
    LowerM Node :=
  compiler.lowerWithin spanOf (compiler.nestingBound expr) expr { hint := some type } type

end Formulary.Compiler
