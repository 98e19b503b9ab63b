import Formulary.Expr.Parser
import Formulary.Lowering.Tree
import Formulary.Simplify.Pass

namespace Formulary.Compiler

/-! From a formula to a program: simplify, lower, guard. -/

/-- A node under guards, the first restriction outermost. Guards are built from the inside. -/
def guarded (compiler : Compiler) (spanOf : Expr → Option Span) (restrictions : List Expr)
    (body : Node) : LowerM Node :=
  restrictions.reverse.foldlM
    (fun body restriction => do
      let condition ← compiler.lowerTo spanOf .bool restriction
      return .guard restriction.display condition body)
    body

/-- The simplified tree, and the restrictions under which it has a value. -/
def simplified (compiler : Compiler) (expr : Expr) : Expr × List Expr :=
  let (simplified, emitted) :=
    Pass.runAll (Pass.ofOptions compiler.options compiler.calculator) expr
  (simplified,
   if compiler.options.ignoreRestrictions then [] else compiler.options.restrictions ++ emitted)

/-- Lower a tree to the type of the formula, and guard it. -/
def lowerGuarded (compiler : Compiler) (spanOf : Expr → Option Span) (restrictions : List Expr)
    (expr : Expr) : LowerM Node := do
  let node ← compiler.lowerTo spanOf compiler.options.expectReturn expr
  compiler.guarded spanOf restrictions node

/-- The program of a tree; `spanOf` gives the places of its parts in the source. -/
def compileWith (compiler : Compiler) (spanOf : Expr → Option Span) (source : Option String)
    (expr : Expr) : Except CompileError Program :=
  let (simplified, restrictions) := compiler.simplified expr
  match compiler.lowerGuarded spanOf restrictions simplified {} with
  | (.error error, _) => .error error
  | (.ok root, state) => do
    let functions ← state.functions.finish
    return { root, functions, slots := state.slots, source,
             restrictions := restrictions.map Expr.display }

def compile (compiler : Compiler) (expr : Expr) : Except CompileError Program :=
  compiler.compileWith (fun _ => none) none expr

def compileSource (compiler : Compiler) (source : String) : Except CompileError Program :=
  match Expr.parseWithSpans source with
  | .ok (expr, spans) => compiler.compileWith spans.spanOf? (some source) expr
  | .error error => .error (.parse error)

end Formulary.Compiler
