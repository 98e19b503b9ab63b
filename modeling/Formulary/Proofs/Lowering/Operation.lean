import Formulary.Proofs.Lowering.Operand

namespace Formulary

variable {compiler : Compiler} {linkage : Linkage} {parameters : List Ty}

/-! Nodes of operators, powers and builtin functions. -/

/-- A function that is not lowered by the host's own code. -/
def Builtin.isCustom : Builtin → Bool
  | custom _ => true
  | _ => false

def PowerStrategy.isCustom : PowerStrategy → Bool
  | custom _ _ => true
  | _ => false

/-- The builtins are the default ones and functions of the host, and powers are lowered by the
    strategies of this library. -/
structure Compiler.Regular (compiler : Compiler) : Prop where
  builtins : ∀ builtin ∈ compiler.builtins, builtin.isCustom = false
  strategies : ∀ strategy ∈ compiler.strategies, strategy.isCustom = false

theorem foldNodes_builds {combine : Node → Node → Node} {nodes : List Node}
    (result : Linkage → Node → Prop) (holds : ∀ node ∈ nodes, result linkage node)
    (combined : ∀ left right, result linkage left → result linkage right →
      result linkage (combine left right)) :
    LowerM.Builds compiler linkage (foldNodes combine nodes) result := by
  cases nodes with
  | nil => exact .throw trivial
  | cons first rest =>
    refine .pure ?_
    have start : result linkage first := holds first (by simp)
    have others : ∀ node ∈ rest, result linkage node :=
      fun node member => holds node (by simp [member])
    clear holds
    induction rest generalizing first with
    | nil => exact start
    | cons second rest ih =>
      exact ih (combine first second)
        (combined first second start (others second (by simp)))
        fun node member => others node (by simp [member])

namespace Compiler

theorem lowerUnary_builds {operand : Operand} (builds : operand.Builds compiler parameters)
    (hint : Option Ty) (op : UnaryOperator) :
    LowerM.Builds compiler linkage (compiler.lowerUnary hint op operand)
      fun later node => Built compiler later parameters node := by
  have number : LowerM.Builds compiler linkage
      (do compiler.catalog.numeric hint (← operand.lower (numericHint hint)))
      fun later node => Built compiler later parameters node ∧
        ∃ type, type.isNumeric ∧ compiler.catalog.Fits node type :=
    .bind (builds linkage _) fun _ _ _ built => numeric_builds built hint
  cases op with
  | negate =>
    refine .bind number fun later _ node fits => ?_
    obtain ⟨built, type, numeric, fits⟩ := fits
    exact .pure (.negate built fits numeric)
  | factorial =>
    refine .bind number fun later _ node fits => ?_
    obtain ⟨built, type, numeric, fits⟩ := fits
    exact .pure (.factorial built fits numeric)
  | not =>
    refine .bind (builds linkage none) fun later _ node built => ?_
    refine .bind (coerce_builds built .bool) fun last _ truth fits => ?_
    exact materialize_builds (.not fits.1 fits.2) hint

theorem lowerArithmetic_builds {operands : List Operand}
    (builds : ∀ operand ∈ operands, operand.Builds compiler parameters) (hint : Option Ty)
    {op : Operator} (arithmetic : op.isArithmetic) :
    LowerM.Builds compiler linkage (compiler.lowerArithmetic hint op operands)
      fun later node => Built compiler later parameters node := by
  refine .bind (.mapM_all (fun later node => Built compiler later parameters node)
    .later fun operand member later _ => ?_) fun later order nodes built => ?_
  · refine .bind (builds operand member later _) fun last _ node built => ?_
    exact .weaken (.locating (numeric_builds built hint)) (fun _ _ _ fits => fits.1) id
  · refine .bind (Operand.unify_builds builds built.2 built.1.symm) fun last _ result unified => ?_
    obtain ⟨nodes, type⟩ := result
    dsimp only at unified ⊢
    split
    · exact .throw_bind trivial
    · rename_i numeric
      have numeric : type.isNumeric = true := by simpa using numeric
      refine .weaken (foldNodes_builds (Brought compiler parameters type) unified.2 ?_)
        (fun _ _ _ brought => brought.1) id
      intro left right leftFits rightFits
      exact ⟨.arith arithmetic numeric leftFits.1 leftFits.2 rightFits.1 rightFits.2, .of_ty rfl⟩

theorem lowerAll_builds {operands : List Operand}
    (builds : ∀ operand ∈ operands, operand.Builds compiler parameters) (hint : Option Ty) :
    LowerM.Builds compiler linkage (Operand.lowerAll hint operands)
      fun later nodes => nodes.length = operands.length ∧
        ∀ node ∈ nodes, Built compiler later parameters node :=
  .mapM_all (fun later node => Built compiler later parameters node) .later
    fun operand member later _ => builds operand member later hint

theorem lowerComparison_builds {operands : List Operand}
    (builds : ∀ operand ∈ operands, operand.Builds compiler parameters) (hint : Option Ty)
    {op : Operator} (comparison : op.isComparison) :
    LowerM.Builds compiler linkage (compiler.lowerComparison hint op operands)
      fun later node => Built compiler later parameters node := by
  unfold lowerComparison
  dsimp only
  split
  · exact .throw_bind trivial
  · rename_i two
    refine .bind (lowerAll_builds builds none) fun later order nodes built => ?_
    refine .bind (Operand.unify_builds builds built.2 built.1.symm) fun last _ result unified => ?_
    obtain ⟨nodes', type⟩ := result
    dsimp only at unified ⊢
    have compared : LowerM.Builds compiler last (foldNodes (.compare op) nodes')
        fun last node => Built compiler last parameters node := by
      have pair : ∃ left right, nodes' = [left, right] := by
        match nodes', unified.1 with
        | [left, right], _ => exact ⟨left, right, rfl⟩
        | [], size | [_], size | _ :: _ :: _ :: _, size => simp [built.1] at size; omega
      obtain ⟨left, right, rfl⟩ := pair
      have leftFits := unified.2 left (by simp)
      have rightFits := unified.2 right (by simp)
      exact .pure (.compare comparison leftFits.1 leftFits.2 rightFits.1 rightFits.2)
    exact .bind compared fun _ _ node built => materialize_builds built hint

theorem lowerLogic_builds {operands : List Operand}
    (builds : ∀ operand ∈ operands, operand.Builds compiler parameters) (hint : Option Ty)
    {op : Operator} (logical : op.isLogical) :
    LowerM.Builds compiler linkage (compiler.lowerLogic hint op operands)
      fun later node => Built compiler later parameters node := by
  have truth : ∀ {linkage}, ∀ operand ∈ operands, LowerM.Builds compiler linkage
      (do
        let node ← operand.lower none
        operand.locating (compiler.catalog.coerce node .bool))
      (Brought compiler parameters .bool) := by
    intro linkage operand member
    exact .bind (builds operand member linkage none) fun _ _ _ built =>
      .locating (coerce_builds built .bool)
  refine .bind (.mapM_all (Brought compiler parameters .bool) .later
    fun operand member later _ => truth operand member) fun later _ nodes brought => ?_
  refine .bind (foldNodes_builds (Brought compiler parameters .bool) brought.2 ?_)
    fun last _ node brought => materialize_builds brought.1 hint
  intro left right leftFits rightFits
  exact ⟨.logic logical leftFits.1 leftFits.2 rightFits.1 rightFits.2, .of_ty rfl⟩

end Compiler

/-- A result that may be missing, and is built where it is not. -/
abbrev BuiltIfAny (compiler : Compiler) (parameters : List Ty) (linkage : Linkage)
    (result : Option Node) : Prop :=
  ∀ node, result = some node → Built compiler linkage parameters node

theorem BuiltIfAny.none {linkage : Linkage} : BuiltIfAny compiler parameters linkage none :=
  fun _ missing => nomatch missing

theorem BuiltIfAny.some {linkage : Linkage} {node : Node}
    (built : Built compiler linkage parameters node) :
    BuiltIfAny compiler parameters linkage (some node) := by
  intro other same
  cases same
  exact built

theorem Value.ty_ofDecimal {number : Decimal} {type : Ty} {value : Value}
    (exact : Value.ofDecimal number type = .ok value) : value.ty = type := by
  unfold Value.ofDecimal at exact
  dsimp only at exact
  cases type with
  | bool | decimal => cases exact; rfl
  | text | named _ => cases exact
  | int32 | int64 =>
    dsimp only at exact
    split at exact
    · split at exact
      · rename_i found
        cases exact
        obtain ⟨_, _, rfl⟩ := Option.map_eq_some_iff.mp found
        rfl
      · cases exact
    · cases exact
  | float32 | float64 =>
    dsimp only at exact
    split at exact
    · rename_i found
      cases exact
      obtain ⟨_, _, rfl⟩ := Option.map_eq_some_iff.mp found
      rfl
    · cases exact

namespace PowerStrategy

variable {base exponent : Operand}

theorem lowerIntegerExponent_builds (builds : base.Builds compiler parameters)
    (hint : Option Ty) :
    LowerM.Builds compiler linkage (lowerIntegerExponent hint base exponent)
      (BuiltIfAny compiler parameters) := by
  unfold lowerIntegerExponent
  split
  · exact .pure .none
  · rename_i n _
    refine .bind (builds linkage _) fun later _ node built => ?_
    dsimp only
    split
    · exact .pure .none
    · rename_i usable
      have numeric : node.ty.isNumeric = true := by
        cases known : node.ty.isNumeric with
        | true => rfl
        | false => simp [known] at usable
      split
      · rename_i value exact
        exact .pure (.some (.arith rfl numeric built (.of_ty rfl) (.embedded numeric exact)
          (.of_ty (Value.ty_ofDecimal exact))))
      · exact .throw trivial

theorem lowerSameType_builds (baseBuilds : base.Builds compiler parameters)
    (exponentBuilds : exponent.Builds compiler parameters) (hint : Option Ty) :
    LowerM.Builds compiler linkage (lowerSameType hint base exponent)
      (BuiltIfAny compiler parameters) := by
  refine .bind (baseBuilds linkage _) fun later _ left leftBuilt => ?_
  refine .bind (exponentBuilds later _) fun last lastOrder right rightBuilt => ?_
  split
  · rename_i same
    simp only [Bool.and_eq_true, decide_eq_true_eq] at same
    exact .pure (.some (.arith rfl same.2 (leftBuilt.later lastOrder) (.of_ty rfl) rightBuilt
      (.of_ty same.1.symm)))
  · exact .pure .none

theorem lowerWidestType_builds (baseBuilds : base.Builds compiler parameters)
    (exponentBuilds : exponent.Builds compiler parameters) (hint : Option Ty) :
    LowerM.Builds compiler linkage (lowerWidestType compiler.catalog hint base exponent)
      (BuiltIfAny compiler parameters) := by
  have builds : ∀ operand ∈ [base, exponent], operand.Builds compiler parameters := by
    intro operand member
    rcases List.mem_pair.mp member with rfl | rfl
    · exact baseBuilds
    · exact exponentBuilds
  refine .bind (Compiler.lowerAll_builds builds _) fun later _ nodes built => ?_
  refine .bind (Operand.unify_builds builds built.2 built.1.symm) fun last _ result unified => ?_
  obtain ⟨nodes, type⟩ := result
  dsimp only at unified ⊢
  split
  · rename_i left right
    split
    · rename_i numeric
      have leftFits := unified.2 left (by simp)
      have rightFits := unified.2 right (by simp)
      exact .pure (.some (.arith rfl numeric leftFits.1 leftFits.2 rightFits.1 rightFits.2))
    · exact .pure .none
  · exact .pure .none

theorem lower_builds {strategy : PowerStrategy} (regular : strategy.isCustom = false)
    (baseBuilds : base.Builds compiler parameters)
    (exponentBuilds : exponent.Builds compiler parameters) (hint : Option Ty) :
    LowerM.Builds compiler linkage (strategy.lower compiler.catalog hint base exponent)
      (BuiltIfAny compiler parameters) := by
  cases strategy with
  | integerExponent => exact lowerIntegerExponent_builds baseBuilds hint
  | sameType => exact lowerSameType_builds baseBuilds exponentBuilds hint
  | widestType => exact lowerWidestType_builds baseBuilds exponentBuilds hint
  | custom name lower => cases regular

theorem tryAll_builds {strategies : List PowerStrategy}
    (regular : ∀ strategy ∈ strategies, strategy.isCustom = false)
    (baseBuilds : base.Builds compiler parameters)
    (exponentBuilds : exponent.Builds compiler parameters) (hint : Option Ty)
    (failure : CompileError) :
    LowerM.Builds compiler linkage (tryAll compiler.catalog hint base exponent failure strategies)
      fun later node => Built compiler later parameters node := by
  induction strategies generalizing linkage failure with
  | nil => exact .throw trivial
  | cons strategy rest ih =>
    have others : ∀ other ∈ rest, other.isCustom = false :=
      fun other member => regular other (by simp [member])
    refine .bind (.attempt (lower_builds (regular strategy (by simp)) baseBuilds exponentBuilds
      hint)) fun later _ outcome settled => ?_
    match outcome, settled with
    | .ok (some node), built => exact .pure (built node rfl)
    | .ok none, _ => exact ih others failure
    | .error error, _ => exact ih others error

theorem lowerPower_builds {strategies : List PowerStrategy}
    (regular : ∀ strategy ∈ strategies, strategy.isCustom = false)
    (baseBuilds : base.Builds compiler parameters)
    (exponentBuilds : exponent.Builds compiler parameters) (hint : Option Ty) :
    LowerM.Builds compiler linkage
      (lowerPower strategies compiler.catalog hint base exponent)
      fun later node => Built compiler later parameters node :=
  tryAll_builds regular baseBuilds exponentBuilds hint _

theorem chained_builds {strategies : List PowerStrategy}
    (regular : ∀ strategy ∈ strategies, strategy.isCustom = false)
    (spanOf : Expr → Option Span) {operands : List Operand}
    (builds : ∀ operand ∈ operands, operand.Builds compiler parameters) :
    (chained strategies compiler.catalog spanOf operands).Builds compiler parameters := by
  fun_induction chained strategies compiler.catalog spanOf operands with
  | case1 => exact fun _ _ => .throw trivial
  | case2 operand => exact builds operand (by simp)
  | case3 exponent rest _ expr base ih =>
    intro linkage hint
    exact .locating (lowerPower_builds regular
      (ih fun operand member => builds operand (by simp [member]))
      (builds exponent (by simp)) hint)

end PowerStrategy

theorem Operator.isArithmetic_of_others {op : Operator} (comparison : ¬ op.isComparison)
    (logical : ¬ op.isLogical) : op.isArithmetic := by
  cases op <;> simp [isComparison, isLogical, isArithmetic] at *

theorem Compiler.lowerBinary_builds (regular : compiler.Regular) {operands : List Operand}
    (builds : ∀ operand ∈ operands, operand.Builds compiler parameters)
    (spanOf : Expr → Option Span) (hint : Option Ty) (op : Operator) :
    LowerM.Builds compiler linkage (compiler.lowerBinary spanOf hint op operands)
      fun later node => Built compiler later parameters node := by
  have reversed : ∀ operand ∈ operands.reverse, operand.Builds compiler parameters :=
    fun operand member => builds operand (List.mem_reverse.mp member)
  unfold lowerBinary
  split
  · exact .throw trivial
  · rename_i operand single
    exact reversed operand (by simp [single]) linkage hint
  · rename_i last rest _ split_
    rw [split_] at reversed
    split
    · exact PowerStrategy.lowerPower_builds regular.strategies
        (PowerStrategy.chained_builds regular.strategies spanOf
          fun operand member => reversed operand (by simp [member]))
        (reversed last (by simp)) hint
    · split
      · rename_i comparison
        exact lowerComparison_builds builds hint comparison
      · split
        · rename_i logical
          exact lowerLogic_builds builds hint logical
        · rename_i comparison logical
          exact lowerArithmetic_builds builds hint
            (Operator.isArithmetic_of_others comparison logical)

namespace Builtin

variable {operands : List Operand}

theorem lowerConditional_builds
    (builds : ∀ operand ∈ operands, operand.Builds compiler parameters) (hint : Option Ty) :
    LowerM.Builds compiler linkage (lowerConditional compiler.catalog hint operands)
      (BuiltIfAny compiler parameters) := by
  unfold lowerConditional
  split
  · rename_i condition positive negative
    have branches : ∀ operand ∈ [positive, negative], operand.Builds compiler parameters :=
      fun operand member => builds operand (by simp [List.mem_pair.mp member])
    refine .bind (Operand.lowerAs_builds (builds condition (by simp)) .bool)
      fun first _ truth truthFits => ?_
    refine .bind (Compiler.lowerAll_builds branches hint) fun later order nodes built => ?_
    refine .bind (Operand.unify_builds branches built.2 built.1.symm)
      fun last lastOrder result unified => ?_
    obtain ⟨nodes, type⟩ := result
    dsimp only at unified ⊢
    split
    · rename_i left right
      have truthLast := truthFits.later (le_trans order lastOrder)
      have leftFits := unified.2 left (by simp)
      have rightFits := unified.2 right (by simp)
      exact .pure (.some (.choose truthLast.1 truthLast.2 leftFits.1 leftFits.2
        rightFits.1 rightFits.2))
    · exact .pure .none
  · exact .pure .none

theorem lowerMath_builds (function : MathFunction)
    (builds : ∀ operand ∈ operands, operand.Builds compiler parameters) (hint : Option Ty)
    (arity : operands.length = function.arity) :
    LowerM.Builds compiler linkage (lowerMath function compiler.catalog hint operands)
      (BuiltIfAny compiler parameters) := by
  have finish : ∀ {later : Linkage} {arguments : List Node} {type : Ty},
      (function.preservesIntegers ∨ ∃ hint, type = functionType function hint) →
      arguments.length = operands.length →
      (∀ node ∈ arguments, Brought compiler parameters type later node) →
      LowerM.Builds compiler later
        (if type.isNumeric then return some (.native (.math function) type arguments)
          else return none)
        (BuiltIfAny compiler parameters) := by
    intro later arguments type defined size brought
    split
    · rename_i numeric
      exact .pure (.some (.math numeric defined (size.trans arity)
        (fun node member => (brought node member).1) fun node member => (brought node member).2))
    · exact .pure .none
  unfold lowerMath
  dsimp only
  split
  · rename_i preserves
    have numbers : LowerM.Builds compiler linkage
        (operands.mapM fun operand => do
          compiler.catalog.numeric hint (← operand.lower (numericHint hint)))
        fun later nodes => nodes.length = operands.length ∧
          ∀ node ∈ nodes, Built compiler later parameters node :=
      .mapM_all (fun later node => Built compiler later parameters node) .later
        fun operand member later _ => .bind (builds operand member later _) fun _ _ _ built =>
          .weaken (numeric_builds built hint) (fun _ _ _ number => number.1) id
    refine .bind numbers fun later _ nodes built => ?_
    refine .bind (Operand.unify_builds builds built.2 built.1.symm) fun last _ result unified => ?_
    exact finish (.inl preserves) (unified.1.trans built.1) unified.2
  · refine .bind (.mapM_all (Brought compiler parameters (functionType function hint)) .later
      fun operand member later _ => Operand.lowerAs_builds (builds operand member) _)
      fun later _ nodes brought => ?_
    exact finish (.inr ⟨hint, rfl⟩) brought.1 brought.2

theorem lowerHost_builds {function : HostFunction} (registered : .host function ∈ compiler.builtins)
    (builds : ∀ operand ∈ operands, operand.Builds compiler parameters)
    (arity : operands.length = function.parameters.length) :
    LowerM.Builds compiler linkage (lowerHost function compiler.catalog operands)
      (BuiltIfAny compiler parameters) := by
  refine .bind (.mapM (fun later item => Brought compiler parameters item.2 later) .later
    fun item member later _ => Operand.lowerAs_builds (builds item.1 ?_) item.2)
    fun later _ arguments related => ?_
  · exact (List.of_mem_zip member).1
  · have built : ∀ argument ∈ arguments, Built compiler later parameters argument := by
      intro argument member
      obtain ⟨_, _, brought⟩ := exists_of_forall₂ related member
      exact brought.1
    have fits : List.Forall₂ compiler.catalog.Fits arguments function.parameters := by
      rw [← List.map_snd_zip (Nat.le_of_eq arity.symm), List.forall₂_map_right_iff]
      exact (related.imp fun _ _ brought => brought.2).flip
    exact .pure (.some (.host registered built fits))

theorem lower_builds {builtin : Builtin} (regular : builtin.isCustom = false)
    (registered : builtin ∈ compiler.builtins) (accepts : builtin.accepts operands.length)
    (builds : ∀ operand ∈ operands, operand.Builds compiler parameters) (hint : Option Ty) :
    LowerM.Builds compiler linkage (builtin.lower compiler.catalog hint operands)
      (BuiltIfAny compiler parameters) := by
  cases builtin with
  | conditional => exact lowerConditional_builds builds hint
  | math function => exact lowerMath_builds function builds hint (beq_iff_eq.mp accepts)
  | host function => exact lowerHost_builds registered builds (beq_iff_eq.mp accepts)
  | custom function => cases regular

theorem lowerCall_builds (regular : compiler.Regular)
    (builds : ∀ operand ∈ operands, operand.Builds compiler parameters) (hint : Option Ty)
    (name : String) :
    LowerM.Builds compiler linkage
      (lowerCall compiler.builtins compiler.catalog hint name operands)
      fun later node => Built compiler later parameters node := by
  unfold lowerCall
  dsimp only
  split
  · exact .throw_bind trivial
  · split
    · exact .throw trivial
    · rename_i builtin found
      have registered : builtin ∈ compiler.builtins :=
        List.mem_of_mem_filter (List.mem_of_find?_eq_some found)
      have accepts : builtin.accepts operands.length = true := by
        simpa using List.find?_some found
      refine .bind (lower_builds (regular.builtins builtin registered) registered accepts builds
        hint) fun later _ result built => ?_
      cases result with
      | none => exact .throw trivial
      | some node => exact .pure (built node rfl)

end Builtin

end Formulary
