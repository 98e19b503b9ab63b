import Formulary.Calculator
import Formulary.Simplify.Exactness
import Formulary.Simplify.Flatten

namespace Formulary

open scoped Powers

/-! Folding of literal operands, where the folded number is what the operation would give. -/

namespace Calculator

/-- A power of integers whose digits certainly fit. -/
def foldPower? (calculator : Calculator) (base exponent : Decimal) : Option Decimal :=
  if !base.isIntegral || !exponent.isIntegral || exponent.isNegative then none
  else
    let n := exponent.toInt.toNat
    let estimate := base.integerDigits * n
    if 2 ^ (64 : Nat) ≤ n || 2 ^ (64 : Nat) ≤ estimate || calculator.digits < estimate then none
    else (calculator.pow base exponent).toOption.map Decimal.truncate

/-- A division without remainder. -/
def foldQuotient? (calculator : Calculator) (a b : Decimal) : Option Decimal :=
  match Decimal.divide a b calculator.digits with
  | .ok quotient =>
    if quotient.isIntegral && quotient.mul b == a then some quotient.truncate else none
  | .error _ => none

/-- The literal that an operator makes of two literals. -/
def foldPair? (calculator : Calculator) (op : Operator) (a b : Decimal) : Option Decimal :=
  let exact := Decimal.exactEverywhere? [a, b]
  let truth (holds : Bool) : Option Decimal := some (Decimal.ofBool holds)
  let p := !a.isZero
  let q := !b.isZero
  match op with
  | .add => exact (a.add b)
  | .sub => exact (a.sub b)
  | .mul => exact (a.mul b)
  | .div => (calculator.foldQuotient? a b).bind exact
  | .rem => if a.isIntegral && b.isIntegral && q then exact (a.rem b) else none
  | .power => (calculator.foldPower? a b).bind exact
  | .equal => truth (a == b)
  | .unequal => truth (a != b)
  | .less => truth (a.less b)
  | .greater => truth (b.less a)
  | .atMost => truth (!b.less a)
  | .atLeast => truth (!a.less b)
  | .and => truth (p && q)
  | .nand => truth (!(p && q))
  | .or => truth (p || q)
  | .nor => truth (!(p || q))
  | .xor => truth (p != q)
  | .xnor => truth (p == q)

/-- The literal that an operator makes of one literal. -/
def foldUnary? (calculator : Calculator) (op : UnaryOperator) (value : Decimal) :
    Option Decimal :=
  match op with
  | .negate =>
    if value.neg.integerRange ≤ value.integerRange then some value.neg else none
  | .not => some (Decimal.ofBool value.isZero)
  | .factorial =>
    match calculator.factorial value with
    | .ok result =>
      if result.integerDigits ≤ calculator.digits then
        Decimal.exactEverywhere? [value] result
      else none
    | .error _ => none

end Calculator

namespace Expr

/-- Fold the literals of a list into `held`; those that do not fold keep their places. -/
def foldInto (calculator : Calculator) (op : Operator) (held : Decimal) :
    List Expr → Decimal × List Expr
  | [] => (held, [])
  | number value :: rest =>
    match calculator.foldPair? op held value with
    | some folded => foldInto calculator op folded rest
    | none =>
      let (held, rest) := foldInto calculator op held rest
      (held, number value :: rest)
  | expr :: rest =>
    let (held, rest) := foldInto calculator op held rest
    (held, expr :: rest)

/-- Fold every literal into the place of the first one. -/
def foldAll (calculator : Calculator) (op : Operator) : List Expr → List Expr
  | [] => []
  | number value :: rest =>
    let (held, rest) := foldInto calculator op value rest
    number held :: rest
  | expr :: rest => expr :: foldAll calculator op rest

/-- Fold the literals at the front of a list into `held`, up to the first that does not. -/
def foldFront (calculator : Calculator) (op : Operator) (held : Decimal) :
    List Expr → Decimal × List Expr
  | number value :: rest =>
    match calculator.foldPair? op held value with
    | some folded => foldFront calculator op folded rest
    | none => (held, number value :: rest)
  | rest => (held, rest)

/-- Fold the literals at the front of a list, from left to right. -/
def foldLeading (calculator : Calculator) (op : Operator) : List Expr → List Expr
  | number value :: rest =>
    let (held, rest) := foldFront calculator op value rest
    number held :: rest
  | operands => operands

def foldOperands (calculator : Calculator) (keptApart : List Operator) (op : Operator)
    (operands : List Expr) : Expr :=
  nary op <|
    if chains keptApart op then foldAll calculator op operands
    else foldLeading calculator op operands

def foldOperand (calculator : Calculator) (op : UnaryOperator) (operand : Expr) : Expr :=
  match operand.number?.bind (calculator.foldUnary? op) with
  | some folded => number folded
  | none => unary op operand

mutual

def foldLiterals (calculator : Calculator) (keptApart : List Operator) : Expr → Expr
  | number value => number value
  | text content => text content
  | var name => var name
  | unary op operand => foldOperand calculator op (foldLiterals calculator keptApart operand)
  | binary op operands =>
    foldOperands calculator keptApart op (foldLiteralsAll calculator keptApart operands)
  | member target name => member (foldLiterals calculator keptApart target) name
  | call name arguments primed =>
    call name (foldLiteralsAll calculator keptApart arguments) primed
  | define name parameters body value =>
    define name parameters (foldLiterals calculator keptApart body)
      (foldLiterals calculator keptApart value)

def foldLiteralsAll (calculator : Calculator) (keptApart : List Operator) :
    List Expr → List Expr
  | [] => []
  | expr :: rest =>
    foldLiterals calculator keptApart expr :: foldLiteralsAll calculator keptApart rest

end

end Expr

end Formulary
