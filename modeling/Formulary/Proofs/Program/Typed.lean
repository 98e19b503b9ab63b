import Formulary.Proofs.Conversion.Path
import Formulary.Proofs.Evaluation.Raising
import Formulary.Proofs.Evaluation.Typing
import Formulary.Proofs.Lowering.Tree

namespace Formulary

/-! Type soundness: a compiled program evaluates to a value of its type. Type errors are left to
    a few places where a value is not what its type promises. -/

/-- Values that are given to a program or function, one for each declared type. -/
abbrev Compiler.Given (compiler : Compiler) (values : List Value) (types : List Ty) : Prop :=
  List.Forall₂ (fun value type => value.HasType compiler.catalog type) values types

/-- No type is below another, conversions give values of their target type, and the objects that
    conversions and functions of the host make are as the catalog declares them. -/
structure Compiler.Typed (compiler : Compiler) : Prop where
  flat : compiler.catalog.Flat
  conversions : ∀ conversion ∈ compiler.catalog.conversions, ∀ {value result : Value},
    value.ty = conversion.source → conversion.apply value = .ok result →
    result.ty = conversion.target
  converted : ∀ conversion ∈ compiler.catalog.conversions, ∀ {value result : Value},
    value.HasType compiler.catalog conversion.source → conversion.apply value = .ok result →
    result.Conforms compiler.catalog
  hosts : ∀ {function : HostFunction}, .host function ∈ compiler.builtins →
    ∀ {arguments : List Value} {result : Value}, compiler.Given arguments function.parameters →
    function.apply arguments = .ok result → result.Conforms compiler.catalog

/-- Operators that ask which of two values comes first. -/
def Operator.isOrdering : Operator → Bool
  | less | greater | atMost | atLeast => true
  | _ => false

/-- The type errors that the operations of a compiled program can have: the node, the values of
    its operands, and the error. -/
inductive Compiler.TypeErrorCause (compiler : Compiler) (calculator : Calculator) :
    Node → List Value → EvalError → Prop
  /-- A function of the host fails by itself. -/
  | host {function : HostFunction} {operands : List Node} {arguments : List Value} {cause : Fault}
      (registered : .host function ∈ compiler.builtins)
      (typed : arguments.map Value.ty = function.parameters)
      (raised : function.apply arguments = .error cause) :
      TypeErrorCause compiler calculator
        (.native (.host function.name function.apply) function.returnType operands) arguments
        (.fault cause)
  /-- A function of the host gives a value of another type than it declares. -/
  | hostResult {function : HostFunction} {operands : List Node} {arguments : List Value}
      {result : Value} (registered : .host function ∈ compiler.builtins)
      (typed : arguments.map Value.ty = function.parameters)
      (returned : function.apply arguments = .ok result)
      (differs : result.ty ≠ function.returnType) :
      TypeErrorCause compiler calculator
        (.native (.host function.name function.apply) function.returnType operands) arguments
        (.typeError (function.name ++ " returned " ++ result.ty.name ++ ", expected " ++
          function.returnType.name))
  /-- A declared conversion fails by itself. -/
  | conversion {conversion : Conversion} {operand : Node} {value : Value} {cause : Fault}
      (declared : conversion ∈ compiler.catalog.conversions)
      (typed : value.ty = conversion.source) (raised : conversion.apply value = .error cause) :
      TypeErrorCause compiler calculator (.convert (.declared conversion) operand) [value]
        (.fault cause)
  /-- Objects have no order. -/
  | ordering {op : Operator} {left right : Node} {type : String}
      {fields others : List (String × Value)} (ordering : op.isOrdering) :
      TypeErrorCause compiler calculator (.compare op left right)
        [.object type fields, .object type others]
        (.typeError ("cannot compare " ++ type ++ " with " ++ type))
  /-- A float that is not a finite number has no factorial. -/
  | factorial {type : Ty} {operand : Node} {value : Value} (float : value.ty.isFloat)
      (notFinite : value.toDecimal? = none) :
      TypeErrorCause compiler calculator (.factorial type operand) [value]
        (.typeError ("factorial of " ++ value.ty.name))
  /-- The extension of the factorial to fractions fails by itself. -/
  | gamma {type : Ty} {operand : Node} {value : Value} {number : Decimal}
      {gamma : Decimal → Except Fault Decimal} {cause : Fault}
      (finite : value.toDecimal? = some number) (fraction : number.isIntegral = false)
      (extended : calculator.gamma = some gamma)
      (raised : gamma (number.addAligned .one) = .error cause) :
      TypeErrorCause compiler calculator (.factorial type operand) [value] (.fault cause)

section

variable {compiler : Compiler} {calculator : Calculator} {activation : Activation}
  {calls : Nat → List Value → EvalError → Prop}

/-- What is a cause of an error makes the evaluation of the node end with the error. -/
theorem Compiler.TypeErrorCause.causes (activation : Activation) :
    activation.Causes (compiler.TypeErrorCause activation.calculator) := by
  intro node values error caused evaluated
  cases caused with
  | host registered typed raised =>
    refine bind_eq_error.mpr (.inr ⟨values, evaluated, bind_eq_error.mpr (.inl ?_)⟩)
    simp only [raised, EvalError.lift]
  | hostResult registered typed returned differs =>
    rename_i result
    refine bind_eq_error.mpr (.inr ⟨values, evaluated, bind_eq_error.mpr (.inr ⟨result, ?_, ?_⟩)⟩)
    · exact EvalError.lift_eq_ok.mpr returned
    · rw [if_neg differs]
      rfl
  | conversion declared typed raised =>
    refine bind_eq_error.mpr (.inr ⟨_, Activation.evalAll_singleton.mp evaluated, ?_⟩)
    simp only [Step.apply, raised, EvalError.lift]
  | ordering ordering =>
    rename_i op left right type fields others
    obtain ⟨leftDone, rightDone⟩ := Activation.evalAll_pair.mp evaluated
    refine bind_eq_error.mpr (.inr ⟨_, leftDone, bind_eq_error.mpr (.inr ⟨_, rightDone, ?_⟩)⟩)
    refine bind_eq_error.mpr (.inl ?_)
    cases op with
    | less | greater | atMost | atLeast => rfl
    | _ => cases ordering
  | factorial float notFinite =>
    refine bind_eq_error.mpr (.inr ⟨_, Activation.evalAll_singleton.mp evaluated, ?_⟩)
    simp only [Value.factorial, notFinite]
  | gamma finite fraction extended raised =>
    refine bind_eq_error.mpr (.inr ⟨_, Activation.evalAll_singleton.mp evaluated, ?_⟩)
    simp only [Value.factorial, finite, Calculator.factorial, fraction, extended, raised]
    rfl

/-- The error is no type error, or it arises at the node or below it for one of the causes. -/
def Compiler.Excuses (compiler : Compiler) (activation : Activation)
    (calls : Nat → List Value → EvalError → Prop) (node : Node) (error : EvalError) : Prop :=
  error.isTypeError → activation.Raises (compiler.TypeErrorCause activation.calculator) calls node error

theorem Compiler.Excuses.of_false {node : Node} {error : EvalError}
    (other : error.isTypeError = false) : compiler.Excuses activation calls node error :=
  fun typeError => absurd typeError (Bool.eq_false_iff.mp other)

theorem Compiler.Excuses.operand {node operand : Node} {error : EvalError}
    (excused : compiler.Excuses activation calls operand error)
    (reached : activation.Reaches node operand) : compiler.Excuses activation calls node error :=
  fun typeError => .operand reached (excused typeError)

/-- The node evaluates to a value of the type, in the sense of the compiler's catalog. -/
abbrev Compiler.Yields (compiler : Compiler) (activation : Activation)
    (calls : Nat → List Value → EvalError → Prop) (type : Ty) (node : Node) : Prop :=
  Settles (fun value => value.HasType compiler.catalog type)
    (compiler.Excuses activation calls node) (activation.eval node)

theorem Compiler.Yields.operand {node operand : Node} {type : Ty}
    (yields : compiler.Yields activation calls type operand)
    (reached : activation.Reaches node operand) :
    Settles (fun value => value.HasType compiler.catalog type)
      (compiler.Excuses activation calls node) (activation.eval operand) :=
  yields.weaken (fun _ => id) fun _ excused => excused.operand reached

theorem Settles.of_numeric {node : Node} {type : Ty} {outcome : Except EvalError Value}
    (computes : Computes type outcome) (numeric : type.isNumeric) :
    Settles (fun value => value.HasType compiler.catalog type)
      (compiler.Excuses activation calls node) outcome :=
  computes.weaken (fun _ same => .of_numeric same numeric) fun _ => .of_false

theorem Settles.of_cause {value : α → Prop} {outcome : Except EvalError α} {node : Node}
    {values : List Value} (evaluated : activation.evalAll node.operands = .ok values)
    (settles : Settles value (fun error => error.isTypeError →
      compiler.TypeErrorCause activation.calculator node values error) outcome) :
    Settles value (compiler.Excuses activation calls node) outcome :=
  settles.weaken (fun _ => id) fun _ caused typeError => .here evaluated (caused typeError)

theorem Value.castInteger?_ty {n : Int} {target : Ty} {value : Value}
    (cast : castInteger? n target = some value) : value.ty = target := by
  cases target with
  | int32 | int64 =>
    obtain ⟨_, _, rfl⟩ := Option.map_eq_some_iff.mp cast
    rfl
  | float32 | float64 => cases cast; rfl
  | bool | decimal | text | named _ => cases cast

theorem Value.castFloat?_ty {x : Float} {target : Ty} {value : Value}
    (cast : castFloat? x target = some value) : value.ty = target := by
  cases target with
  | int32 | int64 =>
    obtain ⟨_, _, rfl⟩ := Option.map_eq_some_iff.mp cast
    rfl
  | float32 =>
    simp only [castFloat?] at cast
    split at cast
    · cases cast
    · cases cast; rfl
  | float64 => cases cast; rfl
  | bool | decimal | text | named _ => cases cast

theorem Value.cast_typed {value : Value} {target : Ty} (fromNumber : value.ty.isPrimitiveNumeric)
    (toNumber : target.isPrimitiveNumeric) :
    Settles (fun result => result.ty = target) (fun cause => cause.isTypeError = false)
      (value.cast target) := by
  unfold Value.cast
  dsimp only
  split
  · rename_i result found
    split at found
    · cases found; rfl
    · exact castInteger?_ty found
    · exact castInteger?_ty found
    · exact castFloat?_ty found
    · exact castFloat?_ty found
    · cases found
  · simp only [fromNumber, toNumber, Bool.and_self, ↓reduceIte]
    rfl

/-- Among the steps of paths, only declared conversions have type errors of their own. -/
theorem Step.apply_typed (typed : compiler.Typed) (calculator : Calculator) {step : Step}
    {value : Value} (offered : step.Offered compiler.catalog) (same : value.ty = step.source)
    (operand : Node) :
    Settles (fun result => result.ty = step.target ∧
        (value.Conforms compiler.catalog → result.Conforms compiler.catalog))
      (fun cause => cause.isTypeError →
        compiler.TypeErrorCause calculator (.convert step operand) [value] (.fault cause))
      (step.apply value) := by
  have number : ∀ {type : Ty} {result : Value}, type.isNumeric → result.ty = type →
      result.ty = type ∧ (value.Conforms compiler.catalog → result.Conforms compiler.catalog) :=
    fun numeric same => ⟨same, fun _ => .of_numeric (same ▸ numeric)⟩
  cases offered with
  | cast fromNumber toNumber =>
    rename_i source target
    have numeric : target.isNumeric := by cases target <;> first | rfl | cases toNumber
    exact (Value.cast_typed (same ▸ fromNumber) toNumber).weaken
      (fun _ same => number numeric same) fun _ other typeError =>
        absurd typeError (Bool.eq_false_iff.mp other)
  | declared listed =>
    rename_i conversion
    change Settles _ _ (conversion.apply value)
    cases applied : conversion.apply value with
    | ok result =>
      exact ⟨typed.conversions conversion listed same applied, fun conforms =>
        typed.converted conversion listed ⟨same, conforms⟩ applied⟩
    | error cause => exact fun _ => .conversion listed same applied
  | nonzero numeric =>
    have numeric : value.ty.isNumeric := same ▸ numeric
    cases value with
    | bool _ | text _ | object _ _ => cases numeric
    | _ => exact ⟨rfl, fun _ => .plain nofun⟩
  | select numeric =>
    rename_i target
    cases value with
    | bool truth =>
      cases target with
      | bool | text | named _ => cases numeric
      | _ => cases truth <;> exact number rfl rfl
    | _ => cases same

theorem Path.apply_typed (typed : compiler.Typed) {path : Path} {source target : Ty}
    (leads : Path.Leads compiler.catalog source path target) {value result : Value}
    (same : value.ty = source) (applied : path.apply value = .ok result) :
    result.ty = target ∧ (value.Conforms compiler.catalog → result.Conforms compiler.catalog) := by
  induction leads generalizing value with
  | done below =>
    cases applied
    exact ⟨same.trans (typed.flat.eq_of_isSubtype below), id⟩
  | step below offered _ ih =>
    obtain ⟨middle, first, rest⟩ := bind_eq_ok.mp applied
    have same := same.trans (typed.flat.eq_of_isSubtype below)
    have reached := (Step.apply_typed typed compiler.calculator offered same default).of_ok first
    have ends := ih reached.1 rest
    exact ⟨ends.1, fun conforms => ends.2 (reached.2 conforms)⟩

/-- Along a path, a node of the first type becomes a node of the last. -/
theorem Path.converted_yields (typed : compiler.Typed) {path : Path} {source target : Ty}
    (leads : Path.Leads compiler.catalog source path target) {node : Node}
    (yields : compiler.Yields activation calls source node) :
    compiler.Yields activation calls target (node.converted path) := by
  induction leads generalizing node with
  | done below => exact typed.flat.eq_of_isSubtype below ▸ yields
  | step below offered _ ih =>
    refine ih ?_
    refine .bind_of_eq (yields.operand (.first rfl)) fun value evaluated valued => .lift ?_
    have same := valued.1.trans (typed.flat.eq_of_isSubtype below)
    refine (Step.apply_typed typed activation.calculator offered same node).weaken
      (fun _ result => ⟨result.1, result.2 valued.2⟩) fun cause caused typeError => ?_
    exact .here (Activation.evalAll_singleton.mpr evaluated) (caused typeError)

theorem Catalog.Fits.ty_eq (typed : compiler.Typed) {node : Node} {type : Ty}
    (fits : compiler.catalog.Fits node type) : node.ty = type := by
  rcases fits with same | ⟨source, coerced⟩
  · exact same
  · rcases Catalog.coerce_cases coerced with ⟨rfl, same⟩ | ⟨path, found, converted⟩
    · exact same
    · have leads := Catalog.path?_leads found
      rcases converted with rfl | ⟨value, converted, rfl, rfl, applied⟩
      · exact Node.ty_converted typed.flat leads
      · exact (Path.apply_typed typed leads rfl applied).1

theorem Catalog.Fits.types_eq (typed : compiler.Typed) {nodes : List Node} {types : List Ty}
    (fits : List.Forall₂ compiler.catalog.Fits nodes types) : nodes.map Node.ty = types := by
  induction fits with
  | nil => rfl
  | cons first _ ih => rw [List.map_cons, first.ty_eq typed, ih]

/-- A comparison of two values of one type fails only where it asks for the order of objects. -/
theorem Value.comparison_typed {op : Operator} (comparison : op.isComparison) {first second : Value}
    (same : first.ty = second.ty) (left right : Node) :
    Settles (fun _ => True) (fun error => error.isTypeError →
        compiler.TypeErrorCause calculator (.compare op left right) [first, second] error)
      (Value.comparison op first second) := by
  have holds : ∀ order, Settles (fun _ => True) (fun error => error.isTypeError →
      compiler.TypeErrorCause calculator (.compare op left right) [first, second] error)
        (Value.holds op order) := by
    intro order
    cases op with
    | equal | unequal | less | greater | atMost | atLeast => trivial
    | _ => cases comparison
  cases first <;> cases second <;> cases same
  case object type fields others =>
    cases op with
    | less | greater | atMost | atLeast => exact fun _ => .ordering rfl
    | equal | unequal => trivial
    | _ => cases comparison
  all_goals exact holds _

theorem Value.factorial_typed {type : Ty} (numeric : type.isNumeric) {value : Value}
    (same : value.ty = type) (operand : Node) :
    Settles (fun value => value.HasType compiler.catalog type) (fun error => error.isTypeError →
        compiler.TypeErrorCause calculator (.factorial type operand) [value] error)
      (value.factorial calculator type) := by
  unfold Value.factorial
  split
  · rename_i number finite
    refine .lift (.bind ((TypeErrorFree.factorial calculator number).weaken (fun _ => id) ?_)
      fun result _ => ?_)
    · rintro cause fails typeError
      obtain ⟨fraction, gamma, extended, raised⟩ := fails typeError
      exact .gamma finite fraction extended raised
    · refine (Computes.ofDecimal result numeric).weaken
        (fun _ same => .of_numeric same numeric) fun cause other typeError => ?_
      exact absurd typeError (Bool.eq_false_iff.mp other)
  · rename_i notFinite
    refine fun _ => .factorial ?_ notFinite
    subst same
    cases value with
    | float32 _ | float64 _ => rfl
    | int32 _ | int64 _ | decimal _ => cases notFinite
    | bool _ | text _ | object _ _ => cases numeric

theorem Value.member_typed {node : Node} {value : Value} {name : String} {type declared : Ty}
    (valued : value.HasType compiler.catalog type)
    (known : compiler.catalog.memberType? type name = some declared) :
    Settles (fun value => value.HasType compiler.catalog declared)
      (compiler.Excuses activation calls node) (EvalError.lift (value.member name)) := by
  obtain ⟨same, conforms⟩ := valued
  cases value with
  | object kind fields =>
    simp only [Value.member]
    split
    · rename_i field found
      cases conforms with
      | plain plain => exact absurd rfl (plain kind)
      | object declared inner =>
        subst same
        exact ⟨declared found known, inner _ (List.mem_of_find?_eq_some found)⟩
    · exact nofun
  | _ => exact nofun

theorem exists_getElem?_of_forall₂ {α β : Type} {related : α → β → Prop} {items : List α}
    {values : List β} (all : List.Forall₂ related items values) {index : Nat} {value : β}
    (found : values[index]? = some value) : ∃ item, items[index]? = some item ∧ related item value := by
  induction all generalizing index with
  | nil => cases found
  | cons holds _ ih =>
    cases index with
    | zero =>
      cases found
      exact ⟨_, rfl, holds⟩
    | succ index => exact ih found

/-- Where a node is evaluated, every input and parameter has its type, and so have the results
    of calls. -/
structure Linkage.TypedFrame (compiler : Compiler) (linkage : Linkage) (parameters : List Ty)
    (activation : Activation) (calls : Nat → List Value → EvalError → Prop) : Prop where
  slots : compiler.Given activation.slots (linkage.slots.map Slot.type)
  arguments : compiler.Given activation.parameters parameters
  calls : ∀ {index : Nat} {types : List Ty} {type : Ty} {values : List Value},
    linkage.functions[index]? = some (types, type) → compiler.Given values types →
    Settles (fun value => value.HasType compiler.catalog type)
      (fun error => error.isTypeError → calls index values error) (activation.call index values)

theorem evalAll_yields {node : Node} {before nodes : List Node} {values : List Value}
    (listed : node.operands = before ++ nodes) (evaluated : activation.evalAll before = .ok values)
    (yields : ∀ operand ∈ nodes, compiler.Yields activation calls operand.ty operand) :
    Settles (fun values => compiler.Given values (nodes.map Node.ty))
      (compiler.Excuses activation calls node) (activation.evalAll nodes) := by
  induction nodes generalizing before values with
  | nil => exact .nil
  | cons operand rest ih =>
    rw [Activation.evalAll_cons]
    refine .bind_of_eq ((yields operand (by simp)).operand (.operand listed evaluated))
      fun value done valued => ?_
    have next : activation.evalAll (before ++ [operand]) = .ok (values ++ [value]) := by
      rw [Activation.evalAll_append, evaluated, Activation.evalAll_singleton.mpr done]
      rfl
    refine .bind (ih (by simpa using listed) next fun other member =>
      yields other (by simp [member])) fun values given => ?_
    exact .cons valued given

theorem Compiler.Given.types {values : List Value} {types : List Ty}
    (given : compiler.Given values types) : values.map Value.ty = types := by
  induction given with
  | nil => rfl
  | cons valued _ ih => rw [List.map_cons, valued.1, ih]

/-- What a function of the host gives is checked against its declared type. -/
theorem Native.host_typed (typed : compiler.Typed) {function : HostFunction}
    (registered : .host function ∈ compiler.builtins) {values : List Value}
    (given : compiler.Given values function.parameters) (operands : List Node) :
    Settles (fun value => value.HasType compiler.catalog function.returnType)
      (fun error => error.isTypeError → compiler.TypeErrorCause calculator
        (.native (.host function.name function.apply) function.returnType operands) values error)
      ((Native.host function.name function.apply).apply calculator function.returnType values) := by
  unfold Native.apply
  dsimp only
  cases applied : function.apply values with
  | error cause => exact fun _ => .host registered given.types applied
  | ok result =>
    change Settles _ _ (if result.ty = function.returnType then _ else _)
    split
    · rename_i same
      exact ⟨same, typed.hosts registered given applied⟩
    · rename_i differs
      exact fun _ => .hostResult registered given.types applied differs

theorem Native.math_typed {function : MathFunction} {type : Ty} (numeric : type.isNumeric)
    (suits : function.preservesIntegers ∨ type.isInteger = false) {values : List Value}
    (size : values.length = function.arity) (types : ∀ value ∈ values, value.ty = type) :
    Computes type ((Native.math function).apply calculator type values) := by
  unfold Native.apply
  refine .bind (.lift (function.apply_typed calculator numeric suits size types))
    fun value same => ?_
  rw [if_pos same]
  exact same

theorem Builtin.functionType_not_integer (function : MathFunction) (hint : Option Ty) :
    (functionType function hint).isInteger = false := by
  unfold functionType
  split
  · rfl
  · split <;> rfl
  · rfl

theorem literalValue_conforms (catalog : Catalog) (hint : Option Ty) (number : Decimal) :
    (literalValue hint number).Conforms catalog := by
  unfold literalValue
  split
  · rename_i type kept
    have suits := (Option.filter_eq_some_iff.mp kept).2
    cases embedded : Value.ofDecimal number type with
    | error _ => exact .of_numeric (isNumeric_naturalValue number)
    | ok value =>
      refine .plain fun name named => ?_
      have same : type = .named name := (Value.ty_ofDecimal embedded).symm.trans named
      rw [same] at suits
      cases suits
  · exact .of_numeric (isNumeric_naturalValue number)

/-- Every node evaluates to a value of its type. -/
theorem Built.yields (typed : compiler.Typed) {linkage : Linkage} {parameters : List Ty}
    (frame : linkage.TypedFrame compiler parameters activation calls) {node : Node}
    (built : Built compiler linkage parameters node) :
    compiler.Yields activation calls node.ty node := by
  have truth : ∀ {node : Node} {value : Value} {condition : Node},
      compiler.catalog.Fits condition .bool → value.HasType compiler.catalog condition.ty →
      Settles (fun _ => True) (compiler.Excuses activation calls node)
        (EvalError.lift value.truth) :=
    fun fits valued => (Computes.truth (valued.1.trans (fits.ty_eq typed))).weaken
      (fun _ => id) fun _ other => .of_false other
  induction built with
  | literal hint number => exact ⟨rfl, literalValue_conforms _ hint number⟩
  | text content => exact ⟨rfl, .plain nofun⟩
  | embedded numeric exact =>
    have same := Value.ty_ofDecimal exact
    subst same
    exact .of_numeric rfl numeric
  | slot found =>
    rename_i index slot
    have listed : (linkage.slots.map Slot.type)[index]? = some slot.type := by
      rw [List.getElem?_map, found]
      rfl
    obtain ⟨value, given, valued⟩ := exists_getElem?_of_forall₂ frame.slots listed
    simp only [Compiler.Yields, Activation.eval, Node.evalWith, given]
    exact valued
  | parameter found =>
    obtain ⟨value, given, valued⟩ := exists_getElem?_of_forall₂ frame.arguments found
    simp only [Compiler.Yields, Activation.eval, Node.evalWith, given]
    exact valued
  | coerced _ coerced ih =>
    rcases Catalog.coerce_cases coerced with ⟨rfl, -⟩ | ⟨path, found, converted⟩
    · exact ih
    · have leads := Catalog.path?_leads found
      rw [(Catalog.Fits.of_coerce coerced).ty_eq typed]
      rcases converted with rfl | ⟨value, converted, rfl, rfl, applied⟩
      · exact Path.converted_yields typed leads ih
      · have result := Path.apply_typed typed leads rfl applied
        exact ⟨result.1, result.2 ih.2⟩
  | negate _ fits numeric ih =>
    refine .bind (ih.operand (.first rfl)) fun value valued => ?_
    have numeric := fits.ty_eq typed ▸ numeric
    have computes := Computes.negate (valued.1 ▸ numeric)
    rw [valued.1] at computes
    exact .of_numeric computes numeric
  | factorial _ fits numeric ih =>
    refine .bind_of_eq (ih.operand (.first rfl)) fun value evaluated valued => ?_
    exact .of_cause (Activation.evalAll_singleton.mpr evaluated)
      (Value.factorial_typed (fits.ty_eq typed ▸ numeric) valued.1 _)
  | not _ fits ih =>
    refine .bind (ih.operand (.first rfl)) fun value valued => ?_
    exact .bind (truth fits valued) fun _ _ => .bool _ _
  | arith arithmetic numeric _ leftFits _ rightFits leftIH rightIH =>
    refine .bind_of_eq (leftIH.operand (.first rfl)) fun left leftDone leftValued =>
      .bind (rightIH.operand (.second rfl leftDone)) fun right rightValued => ?_
    have leftType := leftValued.1.trans (leftFits.ty_eq typed)
    have rightType := rightValued.1.trans (rightFits.ty_eq typed)
    have computes := Computes.arith activation.calculator arithmetic
      (leftType.trans rightType.symm) (leftType ▸ numeric)
    rw [leftType] at computes
    exact .of_numeric computes numeric
  | compare comparison _ leftFits _ rightFits leftIH rightIH =>
    refine .bind_of_eq (leftIH.operand (.first rfl)) fun left leftDone leftValued =>
      .bind_of_eq (rightIH.operand (.second rfl leftDone)) fun right rightDone rightValued => ?_
    have leftType := leftValued.1.trans (leftFits.ty_eq typed)
    have rightType := rightValued.1.trans (rightFits.ty_eq typed)
    refine .bind (.of_cause (Activation.evalAll_pair.mpr ⟨leftDone, rightDone⟩)
      (Value.comparison_typed comparison (leftType.trans rightType.symm) _ _))
      fun _ _ => .bool _ _
  | logic logical _ leftFits _ rightFits leftIH rightIH =>
    refine .bind_of_eq (leftIH.operand (.first rfl)) fun left leftDone leftValued =>
      .bind_of_eq (truth leftFits leftValued) fun first known _ => ?_
    have known := EvalError.lift_eq_ok.mp known
    refine .bind (.connect (fun asked => ?_) fun other => ?_) fun _ _ => .bool _ _
    · exact .bind (rightIH.operand (.branch rfl leftDone known (if_pos asked)))
        fun right rightValued => truth rightFits rightValued
    rw [logical] at other
    cases other
  | choose _ conditionFits _ positiveFits _ negativeFits conditionIH positiveIH negativeIH =>
    refine .bind_of_eq (conditionIH.operand (.first rfl)) fun value evaluated valued =>
      .bind_of_eq (truth conditionFits valued) fun chosen known _ => ?_
    have known := EvalError.lift_eq_ok.mp known
    cases chosen with
    | true =>
      exact positiveFits.ty_eq typed ▸ positiveIH.operand (.branch rfl evaluated known rfl)
    | false =>
      exact negativeFits.ty_eq typed ▸ negativeIH.operand (.branch rfl evaluated known rfl)
  | member _ declared ih =>
    exact .bind (ih.operand (.first rfl)) fun value valued => Value.member_typed valued declared
  | math numeric defined arity _ fits ih =>
    refine .bind (evalAll_yields (List.nil_append _).symm rfl ih) fun values given => ?_
    refine .of_numeric (Native.math_typed numeric ?_ ?_ ?_) numeric
    · refine defined.imp_right fun ⟨hint, same⟩ => ?_
      rw [same]
      exact Builtin.functionType_not_integer _ hint
    · rw [given.length_eq, List.length_map, arity]
    · intro value member
      have listed : value.ty ∈ values.map Value.ty := List.mem_map_of_mem member
      rw [given.types] at listed
      obtain ⟨argument, argumentMember, same⟩ := List.mem_map.mp listed
      exact same.symm.trans ((fits argument argumentMember).ty_eq typed)
  | host registered _ fits ih =>
    refine .bind_of_eq (evalAll_yields (List.nil_append _).symm rfl ih)
      fun values evaluated given => ?_
    rw [Catalog.Fits.types_eq typed fits] at given
    exact .of_cause evaluated (Native.host_typed typed registered given _)
  | call declared _ ih =>
    refine .bind_of_eq (evalAll_yields (List.nil_append _).symm rfl ih)
      fun values evaluated given => ?_
    exact (frame.calls declared given).weaken (fun _ => id) fun _ raised typeError =>
      .call evaluated (raised typeError)
  | guard _ conditionFits _ conditionIH bodyIH =>
    refine .bind_of_eq (conditionIH.operand (.first rfl)) fun value evaluated valued =>
      .bind_of_eq (truth conditionFits valued) fun violated known _ => ?_
    have known := EvalError.lift_eq_ok.mp known
    cases violated with
    | true => exact nofun
    | false => exact bodyIH.operand (.branch rfl evaluated known rfl)

/-- Calls of a program yield values of the declared types, however deep they are nested. -/
theorem Machine.call_yields (typed : compiler.Typed) (machine : Machine) {linkage : Linkage}
    {state : LowerState} {program : Program} (described : linkage.Describes compiler state)
    (functions : state.functions.bodies = program.functions.map some) {slots : List Value}
    (given : compiler.Given slots (linkage.slots.map Slot.type)) (remaining : Nat) {index : Nat}
    {types : List Ty} {type : Ty} {values : List Value}
    (declared : linkage.functions[index]? = some (types, type))
    (passed : compiler.Given values types) :
    Settles (fun value => value.HasType compiler.catalog type)
      (fun error => error.isTypeError → machine.CallRaises
        (compiler.TypeErrorCause machine.calculator) program slots remaining index values error)
      (machine.call program slots remaining index values) := by
  obtain ⟨function, found, rfl, rfl, built, fits⟩ := described.function functions declared
  induction remaining generalizing index function values with
  | zero =>
    simp only [Machine.call, found]
    intro typeError
    cases typeError
  | succ remaining ih =>
    simp only [Machine.call, found]
    have frame : linkage.TypedFrame compiler function.parameters
        (machine.activation program slots remaining values)
        (machine.CallRaises (compiler.TypeErrorCause machine.calculator) program slots
          remaining) := {
      slots := given
      arguments := passed
      calls := by
        intro index types type values declared passed
        obtain ⟨function, found, rfl, rfl, built, fits⟩ := described.function functions declared
        exact ih function found passed declared built fits }
    have yields := built.yields typed frame
    rw [fits.ty_eq typed] at yields
    exact yields.weaken (fun _ => id) fun _ excused typeError =>
      ⟨function, found, excused typeError⟩

/-- A compiled program has the type that was asked for. Evaluated on values of the types of its
    inputs, it gives a value of this type. When it fails with a type error, then the error arises
    at a node that the evaluation reaches, for one of the named causes and with the values that
    the operands of the node have there; and an error that arises in this way is what the
    evaluation ends with. -/
theorem Compiler.compileWith_typed (compiler : Compiler) (regular : compiler.Regular)
    (typed : compiler.Typed) (spanOf : Expr → Option Span) (source : Option String) (expr : Expr)
    {program : Program} (compiled : compiler.compileWith spanOf source expr = .ok program) :
    program.returnType = compiler.options.expectReturn ∧
      ∀ (machine : Machine) (slots : List Value),
        List.Forall₂ (fun value slot => value.HasType compiler.catalog slot.type) slots
          program.slots →
        (match machine.evaluate program slots with
        | .ok value => value.ty = program.returnType
        | .error error => error.isTypeError →
            machine.Raises (compiler.TypeErrorCause machine.calculator) program slots error) ∧
        ∀ error, machine.Raises (compiler.TypeErrorCause machine.calculator) program slots error →
          machine.evaluate program slots = .error error := by
  obtain ⟨linkage, state, described, slots, functions, built, body, same, fits⟩ :=
    compiler.compileWith_built regular compiled
  have returns : program.returnType = compiler.options.expectReturn :=
    same.trans (fits.ty_eq typed)
  refine ⟨returns, fun machine values given => ⟨?_, fun error raised =>
    raised.evaluate (fun _ _ => TypeErrorCause.causes (machine.activation ..)) given.length_eq⟩⟩
  have typedSlots : compiler.Given values (linkage.slots.map Slot.type) := by
    rwa [← described.slots, ← slots, Compiler.Given, List.forall₂_map_right_iff]
  have frame : linkage.TypedFrame compiler []
      (machine.activation program values machine.maxCallDepth [])
      (machine.CallRaises (compiler.TypeErrorCause machine.calculator) program values
        machine.maxCallDepth) :=
    ⟨typedSlots, .nil, machine.call_yields typed described functions typedSlots _⟩
  have yields := built.yields typed frame
  have evaluated : machine.evaluate program values =
      (machine.activation program values machine.maxCallDepth []).eval program.root := by
    rw [Machine.evaluate, if_neg (by simpa using given.length_eq)]
  rw [evaluated]
  cases outcome : (machine.activation program values machine.maxCallDepth []).eval program.root with
  | ok value => exact (yields.of_ok outcome).1
  | error error => exact yields.of_error outcome

end

theorem Value.Conforms.member {catalog : Catalog} {value result : Value} {name : String}
    (conforms : value.Conforms catalog) (found : value.member name = .ok result) :
    result.Conforms catalog := by
  cases value with
  | object type fields =>
    simp only [Value.member] at found
    split at found
    · rename_i listed
      cases found
      cases conforms with
      | plain plain => exact absurd rfl (plain type)
      | object _ inner => exact inner _ (List.mem_of_find?_eq_some listed)
    · cases found
  | _ => cases found

theorem Catalog.standard_conversion_typed {conversion : Conversion}
    (listed : conversion ∈ Catalog.standard.conversions) {value result : Value}
    (applied : conversion.apply value = .ok result) :
    result.ty = conversion.target ∧ conversion.target.isNumeric := by
  have cases_ : conversion = int32ToDecimal ∨ conversion = int64ToDecimal ∨
      conversion = float64ToDecimal ∨ conversion = decimalToFloat64 ∨
      conversion = decimalToInt64 := by
    simpa [Catalog.standard, Catalog.conversions] using listed
  rcases cases_ with rfl | rfl | rfl | rfl | rfl
  all_goals
    refine ⟨?_, rfl⟩
    simp only [int32ToDecimal, int64ToDecimal, float64ToDecimal, decimalToFloat64,
      decimalToInt64, unexpected] at applied
    split at applied
  · cases applied; rfl
  · cases applied
  · cases applied; rfl
  · cases applied
  · split at applied
    · cases applied; rfl
    · cases applied
  · cases applied
  · split at applied
    · cases applied; rfl
    · cases applied
  · cases applied
  · split at applied
    · cases applied; rfl
    · cases applied
  · cases applied

/-- A function of the host that reads a member of an object. -/
def abscissa : HostFunction where
  name := "px"
  parameters := [.named "Point"]
  returnType := .float64
  apply
    | [value] => value.member "x"
    | _ => .error (.invalidValue "px got other arguments")

def pointCompiler : Compiler where
  options := { inputs := [("p", .named "Point"), ("q", .named "Point")], expectReturn := .decimal }
  catalog := Catalog.standard.declare
    { type := .named "Point", members := [("x", .float64)] }
  builtins := Builtin.defaults ++ [.host abscissa]

theorem pointCompiler_typed : pointCompiler.Typed where
  flat := by
    intro declaration listed
    have cases_ : declaration = Catalog.standard.declarations[0] ∨
        declaration = { type := .named "Point", members := [("x", .float64)] } := by
      simpa [pointCompiler, Catalog.declare, Catalog.standard] using listed
    rcases cases_ with rfl | rfl <;> rfl
  conversions := fun _ listed _ _ _ applied =>
    (Catalog.standard_conversion_typed listed applied).1
  converted := by
    intro conversion listed value result _ applied
    obtain ⟨same, numeric⟩ := Catalog.standard_conversion_typed listed applied
    exact .of_numeric (same ▸ numeric)
  hosts := by
    intro function registered arguments result given applied
    have same : function = abscissa := by
      simpa [pointCompiler, Builtin.defaults, MathFunction.all] using registered
    subst same
    match arguments, given with
    | [value], .cons valued .nil => exact valued.2.member applied

def point (x : Float) : Value := .object "Point" [("x", .float64 x)]

theorem point_hasType (x : Float) :
    (point x).HasType pointCompiler.catalog (.named "Point") := by
  refine ⟨rfl, .object ?_ ?_⟩
  · intro name field declared found known
    have same : field = ("x", .float64 x) :=
      List.mem_singleton.mp (List.mem_of_find?_eq_some found)
    have named : field.1 = name := by simpa using List.find?_some found
    subst same
    subst named
    exact Option.some.inj ((by decide +kernel :
      pointCompiler.catalog.memberType? (.named "Point") "x" = some .float64).symm.trans known)
  · intro field listed
    rw [List.mem_singleton.mp listed]
    exact .plain nofun

/-- The sum of a function of the host and the square of a member, as a decimal. -/
def pointFormula : Expr :=
  .binary .add
    [.call "px" [.var "p"] false,
      .binary .mul [.member (.var "p") "x", .member (.var "p") "x"]]

/-- Whether a point comes before another, as a decimal. -/
def pointOrder : Expr := .binary .less [.var "p", .var "q"]

theorem pointFormula_typed :
    pointCompiler.Regular ∧ pointCompiler.Typed ∧
      (point 2.5).HasType pointCompiler.catalog (.named "Point") ∧
      (∃ program, pointCompiler.compile pointFormula = .ok program ∧
        program.returnType = .decimal ∧ program.slots = [⟨"p", .named "Point"⟩] ∧
        match ({} : Machine).evaluate program [point 2.5] with
        | .ok value => value.ty = program.returnType
        | .error error => error.isTypeError → ({} : Machine).Raises
            (pointCompiler.TypeErrorCause .standard) program [point 2.5] error) ∧
      ∃ program, pointCompiler.compile pointOrder = .ok program ∧
        program.returnType = .decimal ∧
        ({} : Machine).evaluate program [point 2.5, point 2.5] =
          .error (.typeError "cannot compare Point with Point") ∧
        ({} : Machine).Raises (pointCompiler.TypeErrorCause .standard) program
          [point 2.5, point 2.5] (.typeError "cannot compare Point with Point") := by
  have regular : pointCompiler.Regular := ⟨by decide, by decide⟩
  refine ⟨regular, pointCompiler_typed, point_hasType 2.5, ?_, ?_⟩
  · have slots : (pointCompiler.compile pointFormula).toOption.map Program.slots =
        some [⟨"p", .named "Point"⟩] := by decide +kernel
    cases compiled : pointCompiler.compile pointFormula with
    | error error => rw [compiled] at slots; cases slots
    | ok program =>
      rw [compiled] at slots
      have slots : program.slots = [⟨"p", .named "Point"⟩] := Option.some.inj slots
      obtain ⟨returns, evaluates⟩ :=
        pointCompiler.compileWith_typed regular pointCompiler_typed _ _ _ compiled
      refine ⟨program, rfl, returns, slots, (evaluates {} [point 2.5] ?_).1⟩
      rw [slots]
      exact .cons (point_hasType 2.5) .nil
  · obtain ⟨program, compiled, slots, fails⟩ : ∃ program,
        pointCompiler.compile pointOrder = .ok program ∧
        program.slots = [⟨"p", .named "Point"⟩, ⟨"q", .named "Point"⟩] ∧
        ({} : Machine).evaluate program [point 2.5, point 2.5] =
          .error (.typeError "cannot compare Point with Point") := ⟨_, rfl, rfl, rfl⟩
    obtain ⟨returns, evaluates⟩ :=
      pointCompiler.compileWith_typed regular pointCompiler_typed _ _ _ compiled
    have given : List.Forall₂ (fun value slot => value.HasType pointCompiler.catalog slot.type)
        [point 2.5, point 2.5] program.slots := by
      rw [slots]
      exact .cons (point_hasType 2.5) (.cons (point_hasType 2.5) .nil)
    have raised := (evaluates {} _ given).1
    rw [fails] at raised
    exact ⟨program, compiled, returns, fails, raised rfl⟩

/-- An input that is not a number shows that a type error can arise without the host: neither
    functions nor conversions of the host nor objects take part in this factorial. -/
theorem factorial_of_nan_typeError :
    ∃ program, ({ options := { inputs := [("x", .float64)] } } : Compiler).compile
        (.unary .factorial (.var "x")) = .ok program ∧
      program.slots = [⟨"x", .float64⟩] ∧
      ({} : Machine).evaluate program [.float64 (Float.ofBits 0x7ff8000000000000)] =
        .error (.typeError "factorial of f64") :=
  ⟨_, rfl, rfl, rfl⟩

end Formulary
