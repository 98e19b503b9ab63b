import Formulary.Lowering.Tree
import Formulary.Proofs.Lowering.Effect
import Formulary.Proofs.Lowering.Table

namespace Formulary

/-! The nodes that lowering builds. `Built` has one rule for each way in which lowering makes a
    node, with what is known about its parts at that moment; what compiled programs have in
    common is proved from these rules. -/

/-- What nodes can refer to: the inputs of the program and the signatures of its functions. -/
structure Linkage where
  slots : List Slot
  functions : List (List Ty × Ty)

instance : Preorder Linkage where
  le earlier later := earlier.slots <+: later.slots ∧ earlier.functions <+: later.functions
  le_refl _ := ⟨List.prefix_refl _, List.prefix_refl _⟩
  le_trans _ _ _ left right := ⟨left.1.trans right.1, left.2.trans right.2⟩

/-- The node has the type, or it was brought to the type by a conversion. -/
def Catalog.Fits (catalog : Catalog) (node : Node) (type : Ty) : Prop :=
  node.ty = type ∨ ∃ source, catalog.coerce source type = .ok node

/-- A conversion leaves a node of the right type alone. Otherwise it follows a path, with a step
    for each conversion or, for a constant, at once. -/
theorem Catalog.coerce_cases {catalog : Catalog} {source node : Node} {type : Ty}
    (coerced : catalog.coerce source type = .ok node) :
    (node = source ∧ source.ty = type) ∨
      ∃ path, catalog.path? source.ty type = some path ∧
        (node = source.converted path ∨
          ∃ value converted, source = .constant value ∧ node = .constant converted ∧
            path.apply value = .ok converted) := by
  unfold Catalog.coerce at coerced
  split at coerced
  · rename_i same
    cases coerced
    exact .inl ⟨rfl, same⟩
  · split at coerced
    · cases coerced
    · rename_i path found
      refine .inr ⟨path, found, ?_⟩
      split at coerced
      · split at coerced
        · rename_i value _ _ converted applied
          cases coerced
          exact .inr ⟨value, converted, rfl, rfl, applied⟩
        · cases coerced
          exact .inl rfl
      · cases coerced
        exact .inl rfl

inductive Built (compiler : Compiler) (linkage : Linkage) (parameters : List Ty) : Node → Prop
  | literal (hint : Option Ty) (value : Decimal) :
      Built compiler linkage parameters (.constant (literalValue hint value))
  | text (content : String) : Built compiler linkage parameters (.constant (.text content))
  | embedded {number : Decimal} {type : Ty} {value : Value} (numeric : type.isNumeric)
      (exact : Value.ofDecimal number type = .ok value) :
      Built compiler linkage parameters (.constant value)
  | slot {index : Nat} {slot : Slot} (found : linkage.slots[index]? = some slot) :
      Built compiler linkage parameters (.slot index slot.type)
  | parameter {index : Nat} {type : Ty} (found : parameters[index]? = some type) :
      Built compiler linkage parameters (.parameter index type)
  | coerced {source node : Node} {type : Ty} (operand : Built compiler linkage parameters source)
      (coerced : compiler.catalog.coerce source type = .ok node) :
      Built compiler linkage parameters node
  | negate {operand : Node} {type : Ty} (built : Built compiler linkage parameters operand)
      (fits : compiler.catalog.Fits operand type) (numeric : type.isNumeric) :
      Built compiler linkage parameters (.negate operand.ty operand)
  | factorial {operand : Node} {type : Ty} (built : Built compiler linkage parameters operand)
      (fits : compiler.catalog.Fits operand type) (numeric : type.isNumeric) :
      Built compiler linkage parameters (.factorial operand.ty operand)
  | not {operand : Node} (built : Built compiler linkage parameters operand)
      (fits : compiler.catalog.Fits operand .bool) :
      Built compiler linkage parameters (.not operand)
  | arith {op : Operator} {type : Ty} {left right : Node} (arithmetic : op.isArithmetic)
      (numeric : type.isNumeric) (leftBuilt : Built compiler linkage parameters left)
      (leftFits : compiler.catalog.Fits left type)
      (rightBuilt : Built compiler linkage parameters right)
      (rightFits : compiler.catalog.Fits right type) :
      Built compiler linkage parameters (.arith op type left right)
  | compare {op : Operator} {type : Ty} {left right : Node} (comparison : op.isComparison)
      (leftBuilt : Built compiler linkage parameters left)
      (leftFits : compiler.catalog.Fits left type)
      (rightBuilt : Built compiler linkage parameters right)
      (rightFits : compiler.catalog.Fits right type) :
      Built compiler linkage parameters (.compare op left right)
  | logic {op : Operator} {left right : Node} (logical : op.isLogical)
      (leftBuilt : Built compiler linkage parameters left)
      (leftFits : compiler.catalog.Fits left .bool)
      (rightBuilt : Built compiler linkage parameters right)
      (rightFits : compiler.catalog.Fits right .bool) :
      Built compiler linkage parameters (.logic op left right)
  | choose {type : Ty} {condition positive negative : Node}
      (conditionBuilt : Built compiler linkage parameters condition)
      (conditionFits : compiler.catalog.Fits condition .bool)
      (positiveBuilt : Built compiler linkage parameters positive)
      (positiveFits : compiler.catalog.Fits positive type)
      (negativeBuilt : Built compiler linkage parameters negative)
      (negativeFits : compiler.catalog.Fits negative type) :
      Built compiler linkage parameters (.choose type condition positive negative)
  | member {name : String} {type : Ty} {target : Node}
      (built : Built compiler linkage parameters target)
      (declared : compiler.catalog.memberType? target.ty name = some type) :
      Built compiler linkage parameters (.member name type target)
  | math {function : MathFunction} {type : Ty} {arguments : List Node} (numeric : type.isNumeric)
      (defined : function.preservesIntegers ∨ ∃ hint, type = Builtin.functionType function hint)
      (arity : arguments.length = function.arity)
      (built : ∀ argument ∈ arguments, Built compiler linkage parameters argument)
      (fits : ∀ argument ∈ arguments, compiler.catalog.Fits argument type) :
      Built compiler linkage parameters (.native (.math function) type arguments)
  | host {function : HostFunction} {arguments : List Node}
      (registered : .host function ∈ compiler.builtins)
      (built : ∀ argument ∈ arguments, Built compiler linkage parameters argument)
      (fits : List.Forall₂ compiler.catalog.Fits arguments function.parameters) :
      Built compiler linkage parameters
        (.native (.host function.name function.apply) function.returnType arguments)
  | call {index : Nat} {type : Ty} {arguments : List Node}
      (declared : linkage.functions[index]? = some (arguments.map Node.ty, type))
      (built : ∀ argument ∈ arguments, Built compiler linkage parameters argument) :
      Built compiler linkage parameters (.call index type arguments)
  | guard {restriction : String} {condition body : Node}
      (conditionBuilt : Built compiler linkage parameters condition)
      (conditionFits : compiler.catalog.Fits condition .bool)
      (bodyBuilt : Built compiler linkage parameters body) :
      Built compiler linkage parameters (.guard restriction condition body)

theorem Built.later {compiler : Compiler} {earlier later : Linkage} {parameters : List Ty}
    {node : Node} (order : earlier ≤ later) (built : Built compiler earlier parameters node) :
    Built compiler later parameters node := by
  induction built with
  | literal hint value => exact .literal hint value
  | text content => exact .text content
  | embedded numeric exact => exact .embedded numeric exact
  | slot found => exact .slot (getElem?_of_initial order.1 found)
  | parameter found => exact .parameter found
  | coerced _ coerced ih => exact .coerced ih coerced
  | negate _ fits numeric ih => exact .negate ih fits numeric
  | factorial _ fits numeric ih => exact .factorial ih fits numeric
  | not _ fits ih => exact .not ih fits
  | arith arithmetic numeric _ leftFits _ rightFits leftIH rightIH =>
    exact .arith arithmetic numeric leftIH leftFits rightIH rightFits
  | compare comparison _ leftFits _ rightFits leftIH rightIH =>
    exact .compare comparison leftIH leftFits rightIH rightFits
  | logic logical _ leftFits _ rightFits leftIH rightIH =>
    exact .logic logical leftIH leftFits rightIH rightFits
  | choose _ conditionFits _ positiveFits _ negativeFits conditionIH positiveIH negativeIH =>
    exact .choose conditionIH conditionFits positiveIH positiveFits negativeIH negativeFits
  | member _ declared ih => exact .member ih declared
  | math numeric defined arity _ fits ih => exact .math numeric defined arity ih fits
  | host registered _ fits ih => exact .host registered ih fits
  | call declared _ ih => exact .call (getElem?_of_initial order.2 declared) ih
  | guard _ conditionFits _ conditionIH bodyIH => exact .guard conditionIH conditionFits bodyIH

end Formulary
