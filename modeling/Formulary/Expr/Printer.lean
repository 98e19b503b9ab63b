import Formulary.Decimal.Text
import Formulary.Expr.Basic

namespace Formulary.Expr

/-! The written form of a tree. An operand stands in parentheses when it binds less tightly
    than its place requires. -/

/-- Binding strength of the written form. -/
def precedence : Expr → Nat
  | number value => if value.isNegative then 6 else 9
  | text _ | var _ | call _ _ _ => 9
  | unary .factorial _ => 8
  | unary _ _ => 6
  | binary op _ => op.precedence
  | member _ _ => 8
  | define _ _ _ _ => 0

def parenthesize (needed : Bool) (chars : List Char) : List Char :=
  if needed then '(' :: chars ++ [')'] else chars

/-- A quoted text; only the quote itself is escaped. -/
def quote (content : List Char) : List Char :=
  '"' :: content.flatMap (fun c => if c == '"' then ['\\', '"'] else [c]) ++ ['"']

def joined (separator : List Char) : List (List Char) → List Char
  | [] => []
  | [item] => item
  | item :: rest => item ++ separator ++ joined separator rest

mutual

def chars : Expr → List Char
  | number value => value.chars
  | text content => quote content.toList
  | var name => name.toList
  | unary op operand =>
    match op with
    | .factorial => parenthesize (operand.precedence < 9) (chars operand) ++ ['!']
    | _ => op.symbol.toList ++ parenthesize (operand.precedence < 6) (chars operand)
  | binary op operands =>
    joined (' ' :: op.symbol.toList ++ [' ']) (operandChars op true operands)
  | member target name =>
    parenthesize (target.precedence < 8) (chars target) ++ '.' :: name.toList
  | call name arguments primed =>
    name.toList ++ (if primed then ['\''] else []) ++
      '(' :: joined [',', ' '] (argumentChars arguments) ++ [')']
  | define name parameters body value =>
    name.toList ++ '\'' :: '(' :: joined [',', ' '] (parameters.map String.toList) ++
      ")".toList ++ " = ".toList ++ chars body ++ "; ".toList ++ chars value

def operandChars (op : Operator) (first : Bool) : List Expr → List (List Char)
  | [] => []
  | operand :: rest =>
    parenthesize (operand.precedence < op.operandPrecedence first) (chars operand) ::
      operandChars op false rest

def argumentChars : List Expr → List (List Char)
  | [] => []
  | argument :: rest => chars argument :: argumentChars rest

end

def display (expr : Expr) : String := String.ofList expr.chars

/-- A local definition whose parameters are given as trees, each of which must be a variable. -/
def define? (name : String) (parameters : List Expr) (body value : Expr) : Except Fault Expr := do
  let names ← parameters.mapM fun parameter =>
    match parameter with
    | var name => .ok name
    | other => .error <| .invalidDefinition <|
        "parameter `" ++ other.display ++ "` of `" ++ name ++ "` is not a variable"
  return define name names body value

end Formulary.Expr
