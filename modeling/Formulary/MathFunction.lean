namespace Formulary

/-! Mathematical functions that formulas can call. -/

inductive MathFunction where
  | exp
  | ln
  | log
  | sqrt
  | sin
  | cos
  | tan
  | asin
  | acos
  | atan
  | abs
  | floor
  | ceil
  | round
  | min
  | max
deriving DecidableEq, Inhabited

namespace MathFunction

/-- Every function, in the order in which a name is looked up. -/
def all : List MathFunction :=
  [exp, ln, log, sqrt, sin, cos, tan, asin, acos, atan, abs, min, max, floor, ceil, round]

def name : MathFunction → String
  | exp => "exp"
  | ln => "ln"
  | log => "log"
  | sqrt => "sqrt"
  | sin => "sin"
  | cos => "cos"
  | tan => "tan"
  | asin => "asin"
  | acos => "acos"
  | atan => "atan"
  | abs => "abs"
  | floor => "floor"
  | ceil => "ceil"
  | round => "round"
  | min => "min"
  | max => "max"

def ofName? (name : String) : Option MathFunction := all.find? (·.name == name)

/-- Number of arguments; the logarithm takes its base first. -/
def arity : MathFunction → Nat
  | log | min | max => 2
  | _ => 1

/-- Functions whose result has the type of their arguments, integers included. -/
def preservesIntegers : MathFunction → Bool
  | abs | floor | ceil | round | min | max => true
  | _ => false

/-- Functions of angles, which decimals do not have. -/
def isTrigonometric : MathFunction → Bool
  | sin | cos | tan | asin | acos | atan => true
  | _ => false

end MathFunction

end Formulary
