import Formulary.Expr.Scope
import Formulary.Simplify.Inline

namespace Formulary

/-! Simplification of exponentials and logarithms: `e ^ x` is `exp(x)` where `e` is the
    constant, `ln(exp(x))` is `x`, and `exp(ln(x))` is `x` under the restriction that `x` is
    positive. -/

structure ExponentRules where
  /-- Names of the inputs. -/
  inputs : List String
  /-- Whether `exp(ln(x))` may be simplified, at the price of a restriction. -/
  allowDomainChanges : Bool

namespace Expr

/-- The argument of a plain call of a function with one argument. -/
def argumentOf? (name : String) : Expr → Option Expr
  | call callee [argument] false => if callee == name then some argument else none
  | _ => none

/-- The exponent of a power of the variable `e`. -/
def exponentOfE? : Expr → Option Expr
  | binary .power [var name, exponent] => if name == "e" then some exponent else none
  | _ => none

/-- The condition under which the logarithm of a tree has no value. -/
def notPositive (expr : Expr) : Expr := binary .atMost [expr, number Decimal.zero]

/-- Cancel a logarithm and an exponential at the root. -/
def cancelLogarithm (rules : ExponentRules) (bound : List String) (expr : Expr) :
    Expr × List Expr :=
  match (expr.argumentOf? "ln").bind (argumentOf? "exp") with
  | some inner => (inner, [])
  | none =>
    match (expr.argumentOf? "exp").bind (argumentOf? "ln") with
    | some inner =>
      if rules.allowDomainChanges && disjointNames (inner.freeVariables []) bound then
        (inner, [inner.notPositive])
      else (expr, [])
    | none => (expr, [])

/-- Simplify the root of a tree whose parts are simplified. -/
def simplifyRoot (rules : ExponentRules) (bound : List String) (expr : Expr) : Expr × List Expr :=
  match expr.exponentOfE? with
  | some exponent =>
    if rules.inputs.contains "e" || bound.contains "e" then (expr, [])
    else cancelLogarithm rules bound (call "exp" [exponent] false)
  | none => cancelLogarithm rules bound expr

mutual

/-- Simplify a tree below definitions with the parameters `bound`; also the restrictions that
    come with it, in the order in which they arise. -/
def simplifyExponents (rules : ExponentRules) (bound : List String) : Expr → Expr × List Expr
  | number value => (number value, [])
  | text content => (text content, [])
  | var name => (var name, [])
  | unary op operand =>
    let (operand, restrictions) := simplifyExponents rules bound operand
    (unary op operand, restrictions)
  | binary op operands =>
    let (operands, restrictions) := simplifyExponentsAll rules bound operands
    let (result, more) := simplifyRoot rules bound (binary op operands)
    (result, restrictions ++ more)
  | member target name =>
    let (target, restrictions) := simplifyExponents rules bound target
    (member target name, restrictions)
  | call name arguments primed =>
    let (arguments, restrictions) := simplifyExponentsAll rules bound arguments
    let (result, more) := simplifyRoot rules bound (call name arguments primed)
    (result, restrictions ++ more)
  | define name parameters body value =>
    let (body, restrictions) := simplifyExponents rules (parameters ++ bound) body
    let (value, more) := simplifyExponents rules (parameters ++ bound) value
    (define name parameters body value, restrictions ++ more)

def simplifyExponentsAll (rules : ExponentRules) (bound : List String) :
    List Expr → List Expr × List Expr
  | [] => ([], [])
  | expr :: rest =>
    let (expr, restrictions) := simplifyExponents rules bound expr
    let (rest, more) := simplifyExponentsAll rules bound rest
    (expr :: rest, restrictions ++ more)

end

end Expr

end Formulary
