import Formulary.Decimal.Text
import Formulary.Document.Basic
import Formulary.Expr.Basic
import Formulary.Ty

namespace Formulary

/-! Types, operators and trees as documents. -/

def Ty.ofDocument? (document : Document) : Option Ty := do
  match ← document.alternative? with
  | ("named", some content) => return .named (← content.text?)
  | _ =>
    match ← document.bareAlternative? with
    | "bool" => some .bool
    | "i32" => some .int32
    | "i64" => some .int64
    | "f32" => some .float32
    | "f64" => some .float64
    | "decimal" => some .decimal
    | "str" => some .text
    | _ => none

def Ty.toDocument : Ty → Document
  | .named name => .fields [("named", .text name)]
  | ty => .text ty.name

/-- Operators in the order of their declaration with their names. -/
def Operator.named : List (Operator × String) :=
  [(.add, "add"), (.sub, "sub"), (.mul, "mul"), (.div, "div"), (.rem, "mod"), (.power, "power"),
   (.and, "and"), (.nand, "n_and"), (.or, "or"), (.nor, "n_or"), (.xor, "xor"), (.xnor, "x_nor"),
   (.equal, "eq"), (.unequal, "neq"), (.less, "lt"), (.greater, "gt"), (.atMost, "le"),
   (.atLeast, "ge")]

def Operator.ofName? (name : String) : Option Operator :=
  (named.find? fun entry => entry.2 == name).map (·.1)

def Operator.name (op : Operator) : String :=
  ((named.find? fun entry => entry.1 == op).map (·.2)).getD ""

def Operator.ofDocument? (document : Document) : Option Operator :=
  document.bareAlternative?.bind ofName?

def Operator.toDocument (op : Operator) : Document := .text op.name

def UnaryOperator.ofName? : String → Option UnaryOperator
  | "negate" => some .negate
  | "not" => some .not
  | "factorial" => some .factorial
  | _ => none

def UnaryOperator.name : UnaryOperator → String
  | negate => "negate"
  | not => "not"
  | factorial => "factorial"

def UnaryOperator.ofDocument? (document : Document) : Option UnaryOperator :=
  document.bareAlternative?.bind ofName?

/-- A decimal written without quotes. Integers of at most 128 bits are exact, all other numbers
    that are finite floats stand for the value of the float, and what is neither is a text. -/
def Decimal.ofPlain? (content : String) : Option Decimal :=
  if content.isEmpty || Document.isNullWord content || (Document.boolWord? content).isSome then none
  else
    let chars := content.toList
    match Document.plainInt? chars with
    | some value => some (Decimal.ofInt value)
    | none =>
      match if Document.hasLeadingZeros chars then none else Document.plainFloat? chars with
      | some value => (Binary.unpack64 value).toDecimal?
      | none => Decimal.parse? content

/-- A decimal written as text or as a number; a float stands for its exact value. -/
def Decimal.ofDocument? : Document → Option Decimal
  | .text content => Decimal.parse? content
  | .plain content => Decimal.ofPlain? content
  | .integer value => some (Decimal.ofInt value)
  | .float value => (Binary.unpack64 value).toDecimal?
  | _ => none

namespace Expr

/-- A tree whose parts are read by `inner`. -/
def ofDocumentWith (inner : Document → Option Expr) (document : Document) : Option Expr := do
  let (kind, content) ← document.alternative?
  let content ← content
  match kind with
  | "Literal" => return number (← Decimal.ofDocument? content)
  | "Variable" => return var (← content.text?)
  | "StringLiteral" => return text (← content.text?)
  | "Unary" =>
    match ← content.record? ["op", "operand"] with
    | [some op, some operand] => return unary (← UnaryOperator.ofDocument? op) (← inner operand)
    | _ => none
  | "Binary" =>
    match ← content.record? ["op", "args"] with
    | [some op, some operands] =>
      return binary (← Operator.ofDocument? op) (← operands.list? inner)
    | _ => none
  | "Member" =>
    match ← content.record? ["target", "name"] with
    | [some target, some name] => return member (← inner target) (← name.text?)
    | _ => none
  | "Function" =>
    match ← content.record? ["name", "args", "is_user_call"] with
    | [some name, some arguments, some primed] =>
      return call (← name.text?) (← arguments.list? inner) (← primed.bool?)
    | _ => none
  | "CustomDefinition" =>
    match ← content.record? ["function_name", "parameters", "body", "value"] with
    | [some name, some parameters, some body, some value] =>
      return define (← name.text?) (← parameters.list? Document.text?) (← inner body)
        (← inner value)
    | _ => none
  | _ => none

/-- A tree nested at most `depth` deep. -/
def ofDocumentAt : Nat → Document → Option Expr
  | 0, _ => none
  | depth + 1, document => ofDocumentWith (ofDocumentAt depth) document

def ofDocument? (document : Document) : Option Expr := ofDocumentAt document.depth document

mutual

def toDocument : Expr → Document
  | number value => .fields [("Literal", .text value.text)]
  | text content => .fields [("StringLiteral", .text content)]
  | var name => .fields [("Variable", .text name)]
  | unary op operand =>
    .fields [("Unary", .fields [("op", .text op.name), ("operand", toDocument operand)])]
  | binary op operands =>
    .fields [("Binary", .fields [("op", op.toDocument), ("args", .list (toDocuments operands))])]
  | member target name =>
    .fields [("Member", .fields [("target", toDocument target), ("name", .text name)])]
  | call name arguments primed =>
    .fields [("Function", .fields [("name", .text name),
      ("args", .list (toDocuments arguments)), ("is_user_call", .bool primed)])]
  | define name parameters body value =>
    .fields [("CustomDefinition", .fields [("function_name", .text name),
      ("parameters", .list (parameters.map .text)), ("body", toDocument body),
      ("value", toDocument value)])]

def toDocuments : List Expr → List Document
  | [] => []
  | expr :: rest => toDocument expr :: toDocuments rest

end

end Expr

end Formulary
