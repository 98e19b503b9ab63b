import Formulary.Simplify.Exponent
import Formulary.Simplify.Fold

namespace Formulary

/-! Passes over a tree, and their order. -/

inductive Pass where
  | inline (limits : Inlining)
  | exponents (rules : ExponentRules)
  | flatten (keptApart : List Operator)
  | fold (calculator : Calculator) (keptApart : List Operator)

namespace Pass

def name : Pass → String
  | inline _ => "function_inliner"
  | exponents _ => "exponent_simplifier"
  | flatten _ => "binary_combiner"
  | fold _ _ => "literal_combiner"

/-- The tree after the pass, and the restrictions under which it stands for the tree before. -/
def run (pass : Pass) (expr : Expr) : Expr × List Expr :=
  match pass with
  | inline limits => (expr.inline limits, [])
  | exponents rules => expr.simplifyExponents rules []
  | flatten keptApart => (expr.flatten keptApart, [])
  | fold calculator keptApart => (expr.foldLiterals calculator keptApart, [])

/-- One pass after the other, with the restrictions of all of them. -/
def runAll : List Pass → Expr → Expr × List Expr
  | [], expr => (expr, [])
  | pass :: rest, expr =>
    let (expr, restrictions) := pass.run expr
    let (expr, more) := runAll rest expr
    (expr, restrictions ++ more)

/-- Every pass as the options set it up. -/
def all (options : Options) (calculator : Calculator) : List Pass :=
  [inline options.inlining,
   exponents ⟨options.inputs.names, options.allowDomainChanges⟩,
   flatten options.keptApart,
   fold calculator options.keptApart]

def enabled (options : Options) : Pass → Bool
  | inline _ => options.inlining.enabled
  | exponents _ => options.simplifyExponents
  | flatten _ => options.flattenChains
  | fold _ _ => options.foldLiterals

def ofOptions (options : Options) (calculator : Calculator) : List Pass :=
  (all options calculator).filter (enabled options)

end Pass

end Formulary
