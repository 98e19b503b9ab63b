import Formulary.Proofs.Lowering.Tree
import Formulary.Proofs.Semantics.Compile

namespace Formulary

/-! Formulas over integers of one width. Literals, inputs and the result have one type, so
    lowering converts nothing and lowers nothing twice: the program computes what is read off
    the tree, and where a number does not fit it fails with the same error. -/

def Width.type : Width → Ty
  | w32 => .int32
  | w64 => .int64

@[simp] theorem Width.isNumeric_type (w : Width) : w.type.isNumeric = true := by cases w <;> rfl

def Sized.value : {w : Width} → Sized w → Value
  | .w32, n => .int32 n
  | .w64, n => .int64 n

variable {w : Width}

@[simp] theorem Sized.ty_value (n : Sized w) : n.value.ty = w.type := by cases w <;> rfl

/-- The decimal is an integer of the width. -/
def Decimal.Fits (w : Width) (d : Decimal) : Prop := d.isIntegral = true ∧ w.Holds d.toInt

instance (d : Decimal) : Decidable (d.Fits w) :=
  inferInstanceAs (Decidable (d.isIntegral = true ∧ w.Holds d.toInt))

theorem Sized.ofInt?_eq_some {n : Int} (holds : w.Holds n) :
    Sized.ofInt? n = some (⟨n, holds⟩ : Sized w) := dif_pos holds

theorem Value.ofDecimal_of_fits {d : Decimal} (fits : d.Fits w) :
    Value.ofDecimal d w.type = .ok (Sized.value ⟨d.toInt, fits.2⟩) := by
  cases w <;> simp only [Width.type, Value.ofDecimal, fits.1, if_true,
    Sized.ofInt?_eq_some fits.2, Option.map_some, Sized.value]

theorem literalValue_of_fits {d : Decimal} (fits : d.Fits w) :
    literalValue (some w.type) d = Sized.value ⟨d.toInt, fits.2⟩ := by
  have hinted : (some w.type).filter (fun type => decide (type = .bool) || type.isNumeric) =
      some w.type := by simp [Option.filter]
  unfold literalValue
  rw [hinted]
  dsimp only
  rw [Value.ofDecimal_of_fits fits]
  rfl

namespace Expr

mutual

/-- Literals and inputs of the width, under arithmetic. -/
def Uniform (inputs : Table Ty) (w : Width) : Expr → Prop
  | number value => value.Fits w
  | var name => inputs.get? name = some w.type
  | unary op operand => op ≠ .not ∧ Uniform inputs w operand
  | binary op operands => op.isArithmetic ∧ operands ≠ [] ∧ UniformAll inputs w operands
  | _ => False

def UniformAll (inputs : Table Ty) (w : Width) : List Expr → Prop
  | [] => True
  | expr :: rest => Uniform inputs w expr ∧ UniformAll inputs w rest

end

mutual

/-- The value of a formula over integers of the width. -/
def integerWith (calculator : Calculator) (w : Width) (given : String → Value) :
    Expr → Except EvalError Value
  | number value => EvalError.lift (Value.ofDecimal value w.type)
  | var name => .ok (given name)
  | unary .negate operand => do
    (← integerWith calculator w given operand).negate
  | unary .factorial operand => do
    (← integerWith calculator w given operand).factorial calculator w.type
  | binary op (first :: rest) => do
    let value ← integerWith calculator w given first
    combineIntegers calculator w given op value rest
  | _ => .error (.typeError "not a number")

/-- Combine a value with further operands from the left. -/
def combineIntegers (calculator : Calculator) (w : Width) (given : String → Value) (op : Operator)
    (value : Value) : List Expr → Except EvalError Value
  | [] => .ok value
  | operand :: rest => do
    let next ← integerWith calculator w given operand
    let value ← Value.arith calculator op value next
    combineIntegers calculator w given op value rest

end

section

variable {calculator : Calculator} {given : String → Value}

theorem integerWith_number {value : Decimal} (fits : value.Fits w) :
    (number value).integerWith calculator w given = .ok (Sized.value ⟨value.toInt, fits.2⟩) := by
  rw [integerWith, Value.ofDecimal_of_fits fits]
  rfl

theorem integerWith_single (op : Operator) (operand : Expr) :
    (binary op [operand]).integerWith calculator w given =
      operand.integerWith calculator w given := by
  simp only [integerWith, combineIntegers]
  cases operand.integerWith calculator w given <;> rfl

theorem combineIntegers_concat (op : Operator) (value : Value) (operands : List Expr)
    (last : Expr) :
    combineIntegers calculator w given op value (operands ++ [last]) =
      combineIntegers calculator w given op value operands >>= fun value =>
        last.integerWith calculator w given >>= fun operand =>
          Value.arith calculator op value operand := by
  induction operands generalizing value with
  | nil =>
    simp only [List.nil_append, combineIntegers]
    cases last.integerWith calculator w given with
    | error error => rfl
    | ok operand =>
      change (Value.arith calculator op value operand >>= Except.ok) =
        Value.arith calculator op value operand
      cases Value.arith calculator op value operand <;> rfl
  | cons operand rest ih => simp only [List.cons_append, combineIntegers, ih, bind_assoc]

theorem integerWith_concat (op : Operator) {operands : List Expr} (nonempty : operands ≠ [])
    (last : Expr) :
    (binary op (operands ++ [last])).integerWith calculator w given =
      (binary op operands).integerWith calculator w given >>= fun value =>
        last.integerWith calculator w given >>= fun operand =>
          Value.arith calculator op value operand := by
  obtain ⟨first, rest, rfl⟩ := List.exists_cons_of_ne_nil nonempty
  simp only [List.cons_append, integerWith, combineIntegers_concat, bind_assoc]

end

end Expr

/-! Nodes. -/

/-- The node has the type of the width and the value of the tree, whatever the inputs are. -/
structure Node.Computes (calculator : Calculator) (w : Width) (linkage : Linkage) (node : Node)
    (expr : Expr) : Prop where
  ty : node.ty = w.type
  value : ∀ (call : Nat → List Value → Except EvalError Value) (slots : List Value)
    (given : String → Value),
    (∀ ⦃index : Nat⦄ ⦃slot : Slot⦄, linkage.slots[index]? = some slot →
      slots[index]? = some (given slot.name)) →
      node.evalWith calculator call slots [] = expr.integerWith calculator w given

namespace Node.Computes

variable {calculator : Calculator} {linkage : Linkage} {node : Node} {expr : Expr}
variable {nodes : List Node} {exprs : List Expr}

theorem later {last : Linkage} (order : linkage ≤ last)
    (computes : node.Computes calculator w linkage expr) :
    node.Computes calculator w last expr :=
  ⟨computes.ty, fun call slots given input => computes.value call slots given
    fun _ _ found => input (getElem?_of_initial order.1 found)⟩

theorem number {value : Decimal} (fits : value.Fits w) :
    (Node.constant (literalValue (some w.type) value)).Computes calculator w linkage
      (.number value) := by
  rw [literalValue_of_fits fits]
  refine ⟨Sized.ty_value _, fun call slots given input => ?_⟩
  rw [Expr.integerWith_number fits, evalWith]

theorem slot {index : Nat} {name : String} (found : linkage.slots[index]? = some ⟨name, w.type⟩) :
    (Node.slot index w.type).Computes calculator w linkage (.var name) := by
  refine ⟨rfl, fun call slots given input => ?_⟩
  simp only [evalWith, input found, Expr.integerWith]

theorem negate (computes : node.Computes calculator w linkage expr) :
    (Node.negate node.ty node).Computes calculator w linkage (.unary .negate expr) := by
  refine ⟨computes.ty, fun call slots given input => ?_⟩
  simp only [evalWith, Expr.integerWith, computes.value call slots given input]

theorem factorial (computes : node.Computes calculator w linkage expr) :
    (Node.factorial node.ty node).Computes calculator w linkage (.unary .factorial expr) := by
  refine ⟨computes.ty, fun call slots given input => ?_⟩
  simp only [evalWith, Expr.integerWith, computes.value call slots given input, computes.ty]

abbrev All (calculator : Calculator) (w : Width) (linkage : Linkage) (exprs : List Expr)
    (nodes : List Node) : Prop :=
  List.Forall₂ (fun expr node => node.Computes calculator w linkage expr) exprs nodes

theorem arith {first : Node} {head : Expr} (op : Operator)
    (headComputes : first.Computes calculator w linkage head)
    (restComputes : All calculator w linkage exprs nodes) :
    (nodes.foldl (.arith op w.type) first).Computes calculator w linkage
      (.binary op (head :: exprs)) := by
  refine ⟨?_, fun call slots given input => ?_⟩
  · rcases nodes.eq_nil_or_concat with rfl | ⟨initial, last, rfl⟩
    · exact headComputes.ty
    · rw [List.concat_eq_append, List.foldl_append]
      rfl
  · have chain : ∀ (node : Node) (outcome : Except EvalError Value),
        node.evalWith calculator call slots [] = outcome →
        (nodes.foldl (.arith op w.type) node).evalWith calculator call slots [] =
          outcome >>= fun value => Expr.combineIntegers calculator w given op value exprs := by
      -- The node that is built so far is the value that the rest is combined with.
      induction restComputes with
      | nil =>
        intro node outcome evaluated
        simp only [List.foldl_nil, evaluated, Expr.combineIntegers]
        cases outcome <;> rfl
      | cons next _ ih =>
        intro node outcome evaluated
        rw [List.foldl_cons, ih _ _ rfl]
        simp only [evalWith, evaluated, next.value call slots given input,
          Expr.combineIntegers, bind_assoc]
    rw [chain first _ (headComputes.value call slots given input), Expr.integerWith]

theorem power {base exponent : Node} {bases : List Expr} (nonempty : bases ≠ [])
    (baseComputes : base.Computes calculator w linkage (.binary .power bases))
    (exponentComputes : exponent.Computes calculator w linkage expr) :
    (Node.arith .power w.type base exponent).Computes calculator w linkage
      (.binary .power (bases ++ [expr])) := by
  refine ⟨rfl, fun call slots given input => ?_⟩
  rw [Expr.integerWith_concat .power nonempty, evalWith,
    baseComputes.value call slots given input, exponentComputes.value call slots given input]

theorem literalPower {n : Int} {value : Decimal} (fits : value.Fits w)
    (same : Decimal.Same (.ofInt n) value) :
    ∃ constant, Value.ofDecimal (.ofInt n) w.type = .ok constant ∧
      ∀ {linkage : Linkage} {base : Node} {bases : List Expr}, bases ≠ [] →
        base.Computes calculator w linkage (.binary .power bases) →
          (Node.arith .power w.type base (.constant constant)).Computes calculator w linkage
            (.binary .power (bases ++ [.number value])) := by
  have fitsInt : (Decimal.ofInt n).Fits w := by
    rw [Decimal.Fits, same.isIntegral, same.toInt]
    exact fits
  refine ⟨_, Value.ofDecimal_of_fits fitsInt, fun nonempty computes =>
    .power nonempty computes ⟨Sized.ty_value _, fun call slots given input => ?_⟩⟩
  simp only [Expr.integerWith_number fits, evalWith, same.toInt]

/-- Nodes of the width stand for the trees that they compute. -/
def rendering (calculator : Calculator) (w : Width) (inputs : Table Ty) : Rendering Linkage where
  type := w.type
  Admits := Expr.Uniform inputs w
  Renders linkage node := node.Computes calculator w linkage
  numeric := w.isNumeric_type
  ty := Node.Computes.ty
  later := later
  negate := negate
  factorial := factorial
  arith op first rest := .arith op first rest.flip
  power := power
  literalPower := literalPower

end Node.Computes

/-! Lowering. -/

section

variable {compiler : Compiler} {linkage : Linkage} {expr : Expr} {exprs : List Expr}
variable {operand : Operand} {operands : List Operand}

/-- The action succeeds with a node that computes the tree. -/
abbrev LowerM.Computes (compiler : Compiler) (w : Width) (linkage : Linkage)
    (action : LowerM Node) (expr : Expr) : Prop :=
  LowerM.Keeps (Linkage.Describes compiler) linkage action
    (fun later node => node.Computes compiler.calculator w later expr) False

/-- Lowered under the type of the width, at any time, the operand computes the tree. -/
def Operand.Computes (compiler : Compiler) (w : Width) (operand : Operand) (expr : Expr) : Prop :=
  ∀ linkage, LowerM.Computes compiler w linkage (operand.lower (some w.type)) expr

theorem lowerUnary_computes {op : UnaryOperator} (arithmetic : op ≠ .not)
    (computes : operand.Computes compiler w expr) :
    LowerM.Computes compiler w linkage (compiler.lowerUnary (some w.type) op operand)
      (.unary op expr) :=
  (Node.Computes.rendering compiler.calculator w compiler.options.inputs).lowerUnary_lowers
    compiler op arithmetic fun linkage _ => computes linkage

/-- The operand stands for a formula over integers of the width. -/
structure Operand.Stands (compiler : Compiler) (w : Width) (operand : Operand) (expr : Expr) :
    Prop where
  written : operand.expr = expr
  uniform : expr.Uniform compiler.options.inputs w
  computes : operand.Computes compiler w expr

theorem lowerBinary_computes (strategies : compiler.strategies = PowerStrategy.defaults)
    (spanOf : Expr → Option Span) {op : Operator} (nonempty : exprs ≠ [])
    (arithmetic : op.isArithmetic = true)
    (stand : List.Forall₂ (Operand.Stands compiler w) operands exprs) :
    LowerM.Computes compiler w linkage (compiler.lowerBinary spanOf (some w.type) op operands)
      (.binary op exprs) :=
  (Node.Computes.rendering compiler.calculator w compiler.options.inputs).lowerBinary_lowers
    strategies spanOf nonempty (.inl arithmetic) (stand.imp fun _ _ one =>
      ⟨one.written, one.uniform, fun linkage _ => one.computes linkage⟩)

theorem lowerVariable_computes {scope : Scope} {name : String} (outside : scope.parameters = [])
    (declared : compiler.options.inputs.get? name = some w.type) :
    LowerM.Computes compiler w linkage (compiler.lowerVariable scope name) (.var name) := by
  unfold Compiler.lowerVariable
  rw [outside]
  simp only [List.lookup_nil, declared]
  exact .bind (slotIndex_keeps declared) fun _ _ _ found => .pure (.slot found)

namespace Compiler

mutual

theorem lowerWith_computes (strategies : compiler.strategies = PowerStrategy.defaults)
    (spanOf : Expr → Option Span) (enter : Expr → Scope → Ty → LowerM Node) :
    ∀ (expr : Expr) (scope : Scope) {linkage : Linkage},
      expr.Uniform compiler.options.inputs w → scope.hint = some w.type → scope.parameters = [] →
        LowerM.Computes compiler w linkage (compiler.lowerWith spanOf enter expr scope) expr
  | .number value, scope, _, uniform, hint, _ => by
    rw [lowerWith, hint]
    exact .pure (.number uniform)
  | .var name, _, _, uniform, _, outside => .locating (lowerVariable_computes outside uniform)
  | .unary op operand, scope, _, uniform, hint, outside => by
    rw [lowerWith, hint]
    refine .locating (lowerUnary_computes uniform.1 fun linkage => ?_)
    exact lowerWith_computes strategies spanOf enter operand (scope.withHint (some w.type))
      uniform.2 rfl outside
  | .binary op operands, scope, _, uniform, hint, outside => by
    rw [lowerWith, hint]
    exact .locating (lowerBinary_computes strategies spanOf uniform.2.1 uniform.1
      (operandsWith_stand strategies spanOf enter operands scope uniform.2.2 outside))
  | .text _, _, _, uniform, _, _ | .member _ _, _, _, uniform, _, _
  | .call _ _ _, _, _, uniform, _, _ | .define _ _ _ _, _, _, uniform, _, _ => uniform.elim

theorem operandsWith_stand (strategies : compiler.strategies = PowerStrategy.defaults)
    (spanOf : Expr → Option Span) (enter : Expr → Scope → Ty → LowerM Node) :
    ∀ (exprs : List Expr) (scope : Scope), Expr.UniformAll compiler.options.inputs w exprs →
      scope.parameters = [] →
        List.Forall₂ (Operand.Stands compiler w) (compiler.operandsWith spanOf enter exprs scope)
          exprs
  | [], _, _, _ => .nil
  | expr :: rest, scope, uniform, outside =>
    .cons ⟨rfl, uniform.1, fun _ => lowerWith_computes strategies spanOf enter expr
      (scope.withHint (some w.type)) uniform.1 rfl outside⟩
      (operandsWith_stand strategies spanOf enter rest scope uniform.2 outside)

end

theorem lowerTo_computes (strategies : compiler.strategies = PowerStrategy.defaults)
    (spanOf : Expr → Option Span) (uniform : expr.Uniform compiler.options.inputs w) :
    LowerM.Computes compiler w linkage (compiler.lowerTo spanOf w.type expr) expr := by
  unfold lowerTo
  obtain ⟨depth, positive⟩ := Nat.exists_eq_add_one_of_ne_zero
    (Nat.ne_zero_of_lt (compiler.length_definitions_lt_nestingBound expr))
  rw [positive, lowerWithin]
  refine .bind (lowerWith_computes strategies spanOf _ expr _ uniform rfl rfl)
    fun later _ node means => ?_
  rw [coerce_of_ty means.ty]
  exact .locating (.pure means)

/-- A formula over integers of one width compiles to a program that has its value. -/
theorem compileWith_integers {tree : Expr} (default : compiler.Default)
    (returns : compiler.options.expectReturn = w.type)
    (simplified : compiler.simplified expr = (tree, []))
    (uniform : tree.Uniform compiler.options.inputs w) (spanOf : Expr → Option Span)
    (source : Option String) :
    ∃ program, compiler.compileWith spanOf source expr = .ok program ∧
      ∀ machine : Machine, machine.calculator = compiler.calculator →
        ∀ given : String → Value,
          machine.evaluate program (program.slots.map fun slot => given slot.name) =
            tree.integerWith compiler.calculator w given := by
  have computes : LowerM.Computes compiler w ⟨[], []⟩ (compiler.lowerGuarded spanOf [] tree)
      tree := by
    unfold lowerGuarded
    rw [returns]
    exact .bind (lowerTo_computes default.strategies spanOf uniform) fun _ _ _ means => .pure means
  obtain ⟨program, compiled, linkage, state, described, slotsKept, -, means⟩ :=
    (compileWith_keeps simplified .initial computes source).exists_ok
  refine ⟨program, compiled, fun machine same given => ?_⟩
  unfold Machine.evaluate
  rw [if_neg (by simp), same]
  refine means.value _ _ given fun index slot found => ?_
  rw [List.getElem?_map, slotsKept, described.slots, found]
  rfl

end Compiler

end

end Formulary
