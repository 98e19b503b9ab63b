import Formulary.Lowering.Tree

namespace Formulary

/-! Trees over numbers and truth values: every part has a number or a truth value, and where an
    operation asks for numbers, the parts below it cannot turn out as truth values. -/

/-- Numbers and truth values. -/
def Ty.isScalar (type : Ty) : Bool := type = .bool || type.isNumeric

/-- What is asked of a part of a tree: to be a number, to be a number or a truth value, or to be
    a condition, for which truth values are asked and others converted. -/
inductive Place where
  | number
  | scalar
  | condition
deriving DecidableEq

/-- Trees over numbers and truth values at a place, with the given parameters and with functions
    of the given numbers of parameters around them. A call of a local function, and what can turn
    into one when exponentials are simplified, does not stand as a condition: there the function
    would be compiled to a truth value. For the same reason local functions are only called where
    the formula as a whole is a number. -/
inductive Expr.Scalar (compiler : Compiler) :
    Place → List String → List (String × Nat) → Expr → Prop
  | number {place parameters functions} (value : Decimal) :
      Scalar compiler place parameters functions (number value)
  | parameter {place parameters functions name} (bound : name ∈ parameters) :
      Scalar compiler place parameters functions (var name)
  | input {place parameters functions name type} (free : name ∉ parameters)
      (given : compiler.options.inputs.get? name = some type) (suits : type.isScalar)
      (number : place = .number → type.isNumeric) :
      Scalar compiler place parameters functions (var name)
  | constant {place parameters functions name digits} (free : name ∉ parameters)
      (absent : compiler.options.inputs.get? name = none) (known : constant? name = some digits)
      (finite : ∀ type : Ty, type.isFloat → ∃ value,
        Value.ofDecimal (digits.withDigits compiler.calculator.digits) type = .ok value) :
      Scalar compiler place parameters functions (var name)
  | unary {place parameters functions op operand}
      (inside : Scalar compiler .scalar parameters functions operand) :
      Scalar compiler place parameters functions (unary op operand)
  | binary {place parameters functions op operands} (other : op ≠ .power)
      (several : 2 ≤ operands.length) (pair : op.isComparison → operands.length = 2)
      (inside : ∀ operand ∈ operands, Scalar compiler .scalar parameters functions operand) :
      Scalar compiler place parameters functions (binary op operands)
  | power {place parameters functions operands} (away : place ≠ .condition)
      (several : 2 ≤ operands.length)
      (inside : ∀ operand ∈ operands, Scalar compiler .number parameters functions operand) :
      Scalar compiler place parameters functions (binary .power operands)
  | choice {place parameters functions condition positive negative}
      (builtin : functions.lookup "if" = none)
      (truth : Scalar compiler .condition parameters functions condition)
      (left : Scalar compiler place parameters functions positive)
      (right : Scalar compiler place parameters functions negative) :
      Scalar compiler place parameters functions
        (call "if" [condition, positive, negative] false)
  | math {place parameters functions arguments} {function : MathFunction}
      (other : function ≠ .exp ∧ function ≠ .ln)
      (builtin : functions.lookup function.name = none)
      (arity : arguments.length = function.arity)
      (inside : ∀ argument ∈ arguments, Scalar compiler .scalar parameters functions argument) :
      Scalar compiler place parameters functions (call function.name arguments false)
  | exponential {place parameters functions argument} {function : MathFunction}
      (away : place ≠ .condition) (either : function = .exp ∨ function = .ln)
      (builtin : functions.lookup function.name = none)
      (inside : Scalar compiler .number parameters functions argument) :
      Scalar compiler place parameters functions (call function.name [argument] false)
  | call {place parameters functions name arguments primed} (away : place ≠ .condition)
      (returns : compiler.options.expectReturn.isNumeric)
      (known : functions.lookup name = some arguments.length)
      (inside : ∀ argument ∈ arguments, Scalar compiler .number parameters functions argument) :
      Scalar compiler place parameters functions (call name arguments primed)
  | define {place parameters functions name own body value} (other : name ≠ "exp")
      (inside : Scalar compiler .scalar own ((name, own.length) :: functions) body)
      (outside : Scalar compiler place parameters ((name, own.length) :: functions) value) :
      Scalar compiler place parameters functions (define name own body value)

namespace Expr.Scalar

variable {compiler : Compiler} {place : Place} {parameters : List String}
variable {functions : List (String × Nat)} {expr : Expr}

theorem of_number (scalar : Scalar compiler .number parameters functions expr)
    (away : place ≠ .condition) : Scalar compiler place parameters functions expr := by
  generalize start : Place.number = origin at scalar
  induction scalar with
  | number value => exact .number value
  | parameter bound => exact .parameter bound
  | input free given suits number => exact .input free given suits fun _ => number start.symm
  | constant free absent known finite => exact .constant free absent known finite
  | unary inside => exact .unary inside
  | binary other several pair inside => exact .binary other several pair inside
  | power _ several inside => exact .power away several inside
  | choice builtin truth _ _ _ left right => exact .choice builtin truth (left start) (right start)
  | math other builtin arity inside => exact .math other builtin arity inside
  | exponential _ either builtin inside => exact .exponential away either builtin inside
  | call _ returns known inside => exact .call away returns known inside
  | define other inside _ _ outside => exact .define other inside (outside start)

/-- Of the compiler, only its inputs, its type and its calculator matter. -/
theorem of_settings {other : Compiler} (inputs : other.options.inputs = compiler.options.inputs)
    (returns : other.options.expectReturn = compiler.options.expectReturn)
    (calculator : other.calculator = compiler.calculator)
    (scalar : Scalar compiler place parameters functions expr) :
    Scalar other place parameters functions expr := by
  induction scalar with
  | number value => exact .number value
  | parameter bound => exact .parameter bound
  | input free given suits number => exact .input free (inputs ▸ given) suits number
  | constant free absent known finite =>
    exact .constant free (inputs ▸ absent) known (calculator ▸ finite)
  | unary _ inside => exact .unary inside
  | binary different several pair _ inside => exact .binary different several pair inside
  | power away several _ inside => exact .power away several inside
  | choice builtin _ _ _ truth left right => exact .choice builtin truth left right
  | math different builtin arity _ inside => exact .math different builtin arity inside
  | exponential away either builtin _ inside => exact .exponential away either builtin inside
  | call away numeric known _ inside => exact .call away (returns ▸ numeric) known inside
  | define different _ _ inside outside => exact .define different inside outside

theorem pair {op : Operator} {first second : Expr} (other : op ≠ .power)
    (left : Scalar compiler .scalar parameters functions first)
    (right : Scalar compiler .scalar parameters functions second) :
    Scalar compiler place parameters functions (.binary op [first, second]) :=
  .binary other (Nat.le_refl _) (fun _ => rfl) (by simpa using ⟨left, right⟩)

end Expr.Scalar

end Formulary
