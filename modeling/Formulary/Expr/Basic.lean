import Formulary.Decimal.Basic
import Formulary.Fault
import Formulary.Operator

namespace Formulary

/-! Formulas as trees. A binary operator may have any number of operands: chains of an
    associative operator are kept flat, and the other operators group from the left. -/

inductive Expr where
  | number (value : Decimal)
  | text (content : String)
  | var (name : String)
  | unary (op : UnaryOperator) (operand : Expr)
  | binary (op : Operator) (operands : List Expr)
  | member (target : Expr) (name : String)
  | call (name : String) (arguments : List Expr) (primed : Bool)
  | define (name : String) (parameters : List String) (body value : Expr)
deriving Inhabited

namespace Expr

/-- An operator over operands; a single operand stands for itself. -/
def nary (op : Operator) : List Expr → Expr
  | [operand] => operand
  | operands => binary op operands

/-- A tree is a literal when it is a number. -/
def number? : Expr → Option Decimal
  | number value => some value
  | _ => none

def isNumber (expr : Expr) : Bool := expr.number?.isSome

def var? : Expr → Option String
  | var name => some name
  | _ => none

/-- Direct parts in the order of evaluation. -/
def children : Expr → List Expr
  | number _ | text _ | var _ => []
  | unary _ operand => [operand]
  | binary _ operands => operands
  | member target _ => [target]
  | call _ arguments _ => arguments
  | define _ _ body value => [body, value]

mutual

/-- Equality of trees, with numbers compared by value. -/
def equal : Expr → Expr → Bool
  | number a, number b => a == b
  | text a, text b => a == b
  | var a, var b => a == b
  | unary op a, unary op' b => op == op' && equal a b
  | binary op as, binary op' bs => op == op' && equalAll as bs
  | member a name, member b name' => name == name' && equal a b
  | call name as primed, call name' bs primed' =>
    name == name' && primed == primed' && equalAll as bs
  | define name parameters body value, define name' parameters' body' value' =>
    name == name' && parameters == parameters' && equal body body' && equal value value'
  | _, _ => false

def equalAll : List Expr → List Expr → Bool
  | [], [] => true
  | a :: as, b :: bs => equal a b && equalAll as bs
  | _, _ => false

end

instance : BEq Expr := ⟨equal⟩

mutual

def size : Expr → Nat
  | number _ | text _ | var _ => 1
  | unary _ operand => 1 + size operand
  | binary _ operands => 1 + sizeAll operands
  | member target _ => 1 + size target
  | call _ arguments _ => 1 + sizeAll arguments
  | define _ _ body value => 1 + (size body + size value)

def sizeAll : List Expr → Nat
  | [] => 0
  | expr :: rest => size expr + sizeAll rest

end

mutual

/-- The tree and all trees below it, each before its parts. -/
def subtrees : Expr → List Expr
  | number value => [number value]
  | text content => [text content]
  | var name => [var name]
  | unary op operand => unary op operand :: subtrees operand
  | binary op operands => binary op operands :: subtreesAll operands
  | member target name => member target name :: subtrees target
  | call name arguments primed => call name arguments primed :: subtreesAll arguments
  | define name parameters body value =>
    define name parameters body value :: (subtrees body ++ subtrees value)

def subtreesAll : List Expr → List Expr
  | [] => []
  | expr :: rest => subtrees expr ++ subtreesAll rest

end

/-- Number of calls of a function, whether it is called by a prime or not. -/
def countCalls (name : String) (expr : Expr) : Nat :=
  expr.subtrees.countP fun
    | call callee _ _ => callee == name
    | _ => false

end Expr

end Formulary
