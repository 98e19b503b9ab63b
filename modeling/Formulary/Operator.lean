namespace Formulary

/-! Operators of formulas, how they are written and how tightly they bind. -/

inductive Operator where
  | add
  | sub
  | mul
  | div
  | rem
  | power
  | and
  | nand
  | or
  | nor
  | xor
  | xnor
  | equal
  | unequal
  | less
  | greater
  | atMost
  | atLeast
deriving DecidableEq, Inhabited

namespace Operator

def isComparison : Operator → Bool
  | equal | unequal | less | greater | atMost | atLeast => true
  | _ => false

def isArithmetic : Operator → Bool
  | add | sub | mul | div | rem | power => true
  | _ => false

def isLogical : Operator → Bool
  | and | nand | or | nor | xor | xnor => true
  | _ => false

/-- Operators whose result is a truth value. -/
def isBoolean (op : Operator) : Bool := op.isLogical || op.isComparison

/-- Operators whose nested uses may be written as one operator with several operands. -/
def isAssociative : Operator → Bool
  | add | mul | and | or => true
  | _ => false

def symbol : Operator → String
  | add => "+"
  | sub => "-"
  | mul => "*"
  | div => "/"
  | rem => "%"
  | power => "^"
  | and => "&"
  | nand => "~&"
  | or => "|"
  | nor => "~|"
  | xor => "^^"
  | xnor => "~^"
  | equal => "="
  | unequal => "~="
  | less => "<"
  | greater => ">"
  | atMost => "<="
  | atLeast => ">="

/-- Binding strength; the operator with the larger number takes its operands first. -/
def precedence : Operator → Nat
  | or | nor | xor | xnor => 1
  | and | nand => 2
  | equal | unequal | less | greater | atMost | atLeast => 3
  | add | sub => 4
  | mul | div | rem => 5
  | power => 7

/-- Binding strength an operand needs to stand without parentheses. Chains lean to the left,
    those of powers to the right. -/
def operandPrecedence (op : Operator) (first : Bool) : Nat :=
  if first == (op == power) then op.precedence + 1 else op.precedence

/-- Place of the operator in the order of declaration, which is the order of operator sets. -/
def rank (op : Operator) : Nat := op.ctorIdx

end Operator

inductive UnaryOperator where
  | negate
  | not
  | factorial
deriving DecidableEq, Inhabited

namespace UnaryOperator

def symbol : UnaryOperator → String
  | negate => "-"
  | not => "~"
  | factorial => "!"

end UnaryOperator

end Formulary
